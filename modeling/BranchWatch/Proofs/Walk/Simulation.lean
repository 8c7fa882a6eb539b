import BranchWatch.Proofs.Walk.Reading

/-!
# Two walks side by side

Many properties of the walk compare two runs: over different images, over packets that are grouped
differently, over windows that start elsewhere.  A relation `R` of two states is `Kindred` if it
makes their paths alike and if both walks may change their paths in the same way; `E` relates their
errors.  If packets then give the same answer where the last instruction asks for one (`asked?`),
both walks move on from it in the same way (`Kindred.resolve`).

For most relations more is true: the two walks read the same event (`Scoped`), and then they also
find the same next address (`Scoped.locate`).  This may be known only for some of the states in
which a part of the step is at work.  Such a set of states has to be closed under what the parts use
(`Uses`).  In a `Simulation` it is told by a limit within which the first walk stays.  With what is
known about fetching instructions the whole step agrees (`Kindred.step`, `Simulation.step`).
-/

namespace BranchWatch

/-- Two paths are alike in all that decides the next step, apart from the address that compressed
ones refer to. -/
structure FlowState.Alike (s t : FlowState) : Prop where
  ip : s.ip = t.ip
  mode : s.mode = t.mode
  tnt : s.tnt = t.tnt
  returns : s.returns = t.returns
  pending : s.pending = t.pending

theorem FlowState.Alike.refl (s : FlowState) : s.Alike s :=
  ⟨rfl, rfl, rfl, rfl, rfl⟩

theorem FlowState.Alike.symm {s t : FlowState} (h : s.Alike t) : t.Alike s :=
  ⟨h.ip.symm, h.mode.symm, h.tnt.symm, h.returns.symm, h.pending.symm⟩

theorem FlowState.Alike.absorb {s t : FlowState} (h : s.Alike t) (p : Packet) :
    (s.absorb p).Alike (t.absorb p) := by
  cases p with
  | execMode mode => exact { h with mode := rfl }
  | tnt taken => exact { h with tnt := congrArg (· ++ taken) h.tnt }
  | psb => exact ⟨h.ip, h.mode, h.tnt, h.returns, h.pending⟩
  | ip kind payload => exact ⟨h.ip, h.mode, h.tnt, h.returns, h.pending⟩
  | _ => exact h

theorem FlowState.Alike.reset_eq {s t : FlowState} (h : s.Alike t) : s.reset = t.reset := by
  unfold reset
  rw [h.mode]

namespace Cursor

variable {α β : Type} {R : Cursor → Cursor → Prop} {E : DecodeError → DecodeError → Prop}

/-- Two results agree: the same answer or related errors, and related states behind. -/
inductive Agree (R : Cursor → Cursor → Prop) (E : DecodeError → DecodeError → Prop) :
    Walked α → Walked α → Prop
  | ok (a : α) {c d : Cursor} (h : R c d) : Agree R E (.ok a c) (.ok a d)
  | error {e e' : DecodeError} {c d : Cursor} (he : E e e') (h : R c d) :
      Agree R E (.error e c) (.error e' d)

/-- The second result agrees with the first one the other way round. -/
theorem Agree.symm {r s : Walked α} (h : Agree R E r s) :
    Agree (fun d c => R c d) (fun e' e => E e e') s r := by
  cases h with
  | ok a h => exact .ok a h
  | error he h => exact .error he h

theorem Agree.mono {S : Cursor → Cursor → Prop} {F : DecodeError → DecodeError → Prop}
    {r s : Walked α} (h : Agree R E r s) (hR : ∀ {c d : Cursor}, R c d → S c d)
    (hE : ∀ {e e' : DecodeError}, E e e' → F e e') : Agree S F r s := by
  cases h with
  | ok a h => exact .ok a (hR h)
  | error he h => exact .error (hE he) (hR h)

/-- Related states have paths that are alike, and stay related when both paths change in the same
way. -/
structure Kindred (R : Cursor → Cursor → Prop) (E : DecodeError → DecodeError → Prop) :
    Prop where
  alike {c d : Cursor} : R c d → c.flow.Alike d.flow
  withTnt {c d : Cursor} (tnt : List Bool) : R c d → R (c.withTnt tnt) (d.withTnt tnt)
  withReturns {c d : Cursor} (returns : ReturnStack) :
    R c d → R (c.withReturns returns) (d.withReturns returns)
  withIp {c d : Cursor} (ip : Option UInt64) : R c d → R (c.withIp ip) (d.withIp ip)
  withPending {c d : Cursor} (pending : Option Pending) :
    R c d → R (c.withPending pending) (d.withPending pending)
  desync {c d : Cursor} (expected : Expected) : R c d → E (c.desync expected) (d.desync expected)

/-- The state behind the outcome lies within a limit, which may depend on the error. -/
def Within (W : Option DecodeError → Cursor → Prop) : Walked α → Prop
  | .ok _ d => W none d
  | .error e d => W (some e) d

/-- What two walks have to share for their paths to be the same, as far as the first one stays
within the limit `W`.  A walk that is within the limit later on is so now. -/
structure Simulation (W : Option DecodeError → Cursor → Prop) (R : Cursor → Cursor → Prop)
    (E : DecodeError → DecodeError → Prop) : Prop extends Kindred R E where
  within {α : Type} {c : Cursor} {r : Walked α} : Follows c r → Within W r → W none c
  nextEvent {c d : Cursor} : R c d → Within W c.nextEvent → Agree R E c.nextEvent d.nextEvent
  asyncAhead {c d : Cursor} (ip : UInt64) : R c d → c.flow.tnt = [] → Within W (c.asyncEvent ip) →
    (∃ ahead, c.asyncAhead ip = .ok ahead ∧ d.asyncAhead ip = .ok ahead) ∨
      ∃ e e', c.asyncAhead ip = .error e ∧ d.asyncAhead ip = .error e' ∧
        E (.packet e) (.packet e')

/-! ## Moving on from an instruction -/

/-- The state in which an instruction asks the packets where it leads, if it does so: not if there
is only one place, and not if an outcome is waiting. -/
def asking (p : Pending) (c : Cursor) : Option Cursor :=
  match p.flow with
  | .next | .jump _ | .call _ => none
  | .indirectCall =>
    if c.flow.tnt.isEmpty then some (c.withReturns (c.flow.returns.push p.fallThrough)) else none
  | .conditional _ | .ret | .indirectJump | .far => if c.flow.tnt.isEmpty then some c else none

/-- The state in which the next step asks where the last instruction leads, if it does so. -/
def asked? (c : Cursor) : Option Cursor :=
  match c.flow.pending with
  | none => none
  | some p => asking p (c.withPending none)

/-- Where a packet is asked for and there is an answer, the step goes on behind it; an error instead
of the answer is the outcome. -/
theorem successor_of_asking {p : Pending} {c c' : Cursor} (hasking : c' ∈ asking p c) :
    match nextBranch c' with
    | .ok _ f => Follows f (successor p c)
    | .error e f => successor p c = .error e f := by
  unfold asking at hasking
  cases hempty : c.flow.tnt.isEmpty with
  | false =>
      rw [hempty] at hasking
      cases hflow : p.flow <;> rw [hflow] at hasking <;> cases hasking
  | true =>
      have htnt := List.isEmpty_iff.1 hempty
      have hpushed : (c.withReturns (c.flow.returns.push p.fallThrough)).flow.tnt = [] := htnt
      have target {c : Cursor} (htnt : c.flow.tnt = []) :
          match nextBranch c with
          | .ok _ f => Follows f (takeTarget c)
          | .error e f => takeTarget c = .error e f := by
        rw [takeTarget_nil htnt]
        rcases nextBranch c with ⟨_ | _ | _, f⟩ | ⟨e, f⟩
        · exact .ok (.refl f)
        · exact .desync f .tip
        · exact .ok (.refl f)
        · rfl
      rw [hempty] at hasking
      rw [successor_eq]
      cases hflow : p.flow with
      | next => rw [hflow] at hasking; cases hasking
      | jump => rw [hflow] at hasking; cases hasking
      | call => rw [hflow] at hasking; cases hasking
      | conditional dest =>
          rw [hflow] at hasking
          cases hasking
          simp only
          rw [takeTnt_nil htnt]
          rcases nextBranch c with ⟨_ | _ | _, f⟩ | ⟨e, f⟩
          · exact .ok (.refl f)
          · have hpop := popTnt_follows f
            simp only
            generalize popTnt f = r at hpop ⊢
            rcases r with ⟨_ | taken, g⟩ | ⟨e, g⟩ <;> exact hpop
          · exact .desync f .tntBit
          · rfl
      | ret =>
          rw [hflow] at hasking
          cases hasking
          simp only
          rw [takeReturn_nil htnt]
          rcases nextBranch c with ⟨_ | _ | _, f⟩ | ⟨e, f⟩
          · exact .ok (.refl f)
          · have hreturn := compressedReturn_follows f
            simp only
            generalize compressedReturn f = r at hreturn ⊢
            cases r <;> exact hreturn
          · exact .ok (.refl f)
          · rfl
      | indirectCall =>
          rw [hflow] at hasking
          cases hasking
          exact target hpushed
      | _ =>
          rw [hflow] at hasking
          cases hasking
          exact target htnt

theorem resolve_of_asked {c c' : Cursor} (hasked : c' ∈ c.asked?) :
    match nextBranch c' with
    | .ok _ f => Follows f (resolve c)
    | .error e f => resolve c = .error e f := by
  unfold asked? at hasked
  cases hp : c.flow.pending with
  | none =>
      rw [hp] at hasked
      cases hasked
  | some p =>
      rw [hp] at hasked
      have hsuccessor := successor_of_asking hasked
      rw [resolve_some hp]
      generalize successor p (c.withPending none) = r at hsuccessor ⊢
      generalize nextBranch c' = b at hsuccessor ⊢
      rcases b with ⟨answer, f⟩ | ⟨e, f⟩
      · rcases r with ⟨_ | ip, g⟩ | ⟨e, g⟩
        · exact hsuccessor
        · obtain ⟨ps, hps⟩ := hsuccessor
          exact .after hps (.ok (.withFlow g rfl rfl))
        · exact hsuccessor
      · simp only at hsuccessor ⊢
        rw [hsuccessor]

namespace Kindred

/-- A relation of states with the same path is kindred if it does not depend on that path. -/
theorem ofFlow (flow_eq : ∀ {c d : Cursor}, R c d → c.flow = d.flow)
    (withFlow : ∀ {c d : Cursor} (flow : FlowState), R c d →
      R { c with flow } { d with flow })
    (desync : ∀ {c d : Cursor} (expected : Expected), R c d →
      E (c.desync expected) (d.desync expected)) : Kindred R E := by
  have update {c d : Cursor} (f : FlowState → FlowState) (h : R c d) :
      R { c with flow := f c.flow } { d with flow := f d.flow } := by
    rw [← flow_eq h]
    exact withFlow _ h
  exact {
    alike := fun h => flow_eq h ▸ .refl _
    withTnt := fun tnt h => update (fun s => { s with tnt }) h
    withReturns := fun returns h => update (fun s => { s with returns }) h
    withIp := fun ip h => update (fun s => { s with ip }) h
    withPending := fun pending h => update (fun s => { s with pending }) h
    desync }

theorem symm (hR : Kindred R E) : Kindred (fun d c => R c d) fun e' e => E e e' where
  alike h := (hR.alike h).symm
  withTnt := hR.withTnt
  withReturns := hR.withReturns
  withIp := hR.withIp
  withPending := hR.withPending
  desync := hR.desync

theorem mono {F : DecodeError → DecodeError → Prop} (hR : Kindred R E)
    (hE : ∀ {e e' : DecodeError}, E e e' → F e e') : Kindred R F where
  alike := hR.alike
  withTnt := hR.withTnt
  withReturns := hR.withReturns
  withIp := hR.withIp
  withPending := hR.withPending
  desync expected h := hE (hR.desync expected h)

/-- Of two relations that are kindred, one or the other holds. -/
theorem or {S : Cursor → Cursor → Prop} (hR : Kindred R E) (hS : Kindred S E) :
    Kindred (fun c d => R c d ∨ S c d) E where
  alike h := h.elim hR.alike hS.alike
  withTnt tnt h := h.imp (hR.withTnt tnt) (hS.withTnt tnt)
  withReturns returns h := h.imp (hR.withReturns returns) (hS.withReturns returns)
  withIp ip h := h.imp (hR.withIp ip) (hS.withIp ip)
  withPending pending h := h.imp (hR.withPending pending) (hS.withPending pending)
  desync expected h := h.elim (hR.desync expected) (hS.desync expected)

variable (kin : Kindred R E) {c d : Cursor}

include kin

theorem popTnt (h : R c d) : Agree R E (popTnt c) (popTnt d) := by
  have halike := kin.alike h
  cases hc : c.flow.tnt with
  | nil =>
      have hd : d.flow.tnt = [] := halike.tnt ▸ hc
      rw [popTnt_nil hc, popTnt_nil hd]
      exact .ok _ h
  | cons taken rest =>
      have hd : d.flow.tnt = taken :: rest := halike.tnt ▸ hc
      rw [popTnt_cons hc, popTnt_cons hd]
      exact .ok _ (kin.withTnt rest h)

theorem compressedReturn (h : R c d) :
    Agree R E (compressedReturn c) (compressedReturn d) := by
  have halike := kin.alike h
  rcases hc : c.flow.tnt with _ | ⟨_ | _, rest⟩
  · have hd : d.flow.tnt = [] := halike.tnt ▸ hc
    rw [compressedReturn_nil hc, compressedReturn_nil hd]
    exact .error (kin.desync _ h) h
  · have hd : d.flow.tnt = false :: rest := halike.tnt ▸ hc
    have hrest := kin.withTnt rest h
    rw [compressedReturn_false hc, compressedReturn_false hd]
    exact .error (kin.desync _ hrest) hrest
  · have hd : d.flow.tnt = true :: rest := halike.tnt ▸ hc
    have hrest := kin.withTnt rest h
    -- The outcome is used up even if no call is left to return to.
    rw [compressedReturn_true hc, compressedReturn_true hd, ← halike.returns]
    rcases c.flow.returns.pop? with _ | ⟨address, returns⟩
    · exact .error (kin.desync _ hrest) hrest
    · exact .ok _ (kin.withReturns returns hrest)

theorem asyncTarget (event : Option FlowEvent) (h : R c d) :
    R (c.asyncTarget event) (d.asyncTarget event) := by
  unfold Cursor.asyncTarget
  split
  · exact kin.withIp _ h
  · exact kin.withIp _ h
  · exact kin.withIp none h
  · exact h

section

variable (hbranch : c.flow.tnt = [] → Agree R E c.nextBranch d.nextBranch)

include hbranch

theorem takeTnt (h : R c d) : Agree R E (takeTnt c) (takeTnt d) := by
  have halike := kin.alike h
  cases hc : c.flow.tnt with
  | nil =>
      have hd : d.flow.tnt = [] := halike.tnt ▸ hc
      have hagree := hbranch hc
      rw [takeTnt_nil hc, takeTnt_nil hd]
      generalize c.nextBranch = r at hagree ⊢
      generalize d.nextBranch = s at hagree ⊢
      cases hagree with
      | error he h => exact .error he h
      | ok branch h =>
          rcases branch with _ | _ | _
          · exact .ok _ h
          · exact kin.popTnt h
          · exact .error (kin.desync _ h) h
  | cons taken rest =>
      have hd : d.flow.tnt = taken :: rest := halike.tnt ▸ hc
      rw [takeTnt_cons hc, takeTnt_cons hd]
      exact .ok _ (kin.withTnt rest h)

theorem takeTarget (h : R c d) : Agree R E (takeTarget c) (takeTarget d) := by
  have halike := kin.alike h
  cases hc : c.flow.tnt with
  | nil =>
      have hd : d.flow.tnt = [] := halike.tnt ▸ hc
      have hagree := hbranch hc
      rw [takeTarget_nil hc, takeTarget_nil hd]
      generalize c.nextBranch = r at hagree ⊢
      generalize d.nextBranch = s at hagree ⊢
      cases hagree with
      | error he h => exact .error he h
      | ok branch h =>
          rcases branch with _ | _ | _
          · exact .ok _ h
          · exact .error (kin.desync _ h) h
          · exact .ok _ h
  | cons taken rest =>
      have hd : d.flow.tnt = taken :: rest := halike.tnt ▸ hc
      rw [takeTarget_cons hc, takeTarget_cons hd]
      exact .error (kin.desync _ h) h

theorem takeReturn (h : R c d) : Agree R E (takeReturn c) (takeReturn d) := by
  have halike := kin.alike h
  have ofReturn {c d : Cursor} (h : R c d) :
      Agree R E (returned (Cursor.compressedReturn c)) (returned (Cursor.compressedReturn d)) := by
    have hagree := kin.compressedReturn h
    generalize Cursor.compressedReturn c = r at hagree ⊢
    generalize Cursor.compressedReturn d = s at hagree ⊢
    cases hagree with
    | ok address h => exact .ok _ h
    | error he h => exact .error he h
  cases hc : c.flow.tnt with
  | nil =>
      have hd : d.flow.tnt = [] := halike.tnt ▸ hc
      have hagree := hbranch hc
      rw [takeReturn_nil hc, takeReturn_nil hd]
      generalize c.nextBranch = r at hagree ⊢
      generalize d.nextBranch = s at hagree ⊢
      cases hagree with
      | error he h => exact .error he h
      | ok branch h =>
          rcases branch with _ | _ | _
          · exact .ok _ h
          · exact ofReturn h
          · exact .ok _ h
  | cons taken rest =>
      have hd : d.flow.tnt = taken :: rest := halike.tnt ▸ hc
      rw [takeReturn_cons hc, takeReturn_cons hd]
      exact ofReturn h

end

/-- Where an instruction leads, if both walks get the same answer where they ask for one. -/
theorem successor (p : Pending)
    (hbranch : ∀ c' ∈ asking p c, ∀ {d' : Cursor}, R c' d' →
      Agree R E c'.nextBranch d'.nextBranch)
    (h : R c d) : Agree R E (successor p c) (successor p d) := by
  have hpushed := kin.withReturns (c.flow.returns.push p.fallThrough) h
  rw [successor_eq, successor_eq, ← (kin.alike h).returns]
  unfold asking at hbranch
  cases hflow : p.flow <;> simp only [hflow] at hbranch ⊢
  case next => exact .ok _ h
  case jump => exact .ok _ h
  case call => exact .ok _ hpushed
  case conditional target =>
      have hagree := kin.takeTnt (fun htnt => hbranch c (by rw [htnt]; rfl) h) h
      generalize Cursor.takeTnt c = r at hagree ⊢
      generalize Cursor.takeTnt d = s at hagree ⊢
      cases hagree with
      | error he h => exact .error he h
      | ok taken h =>
          cases taken with
          | none => exact .ok _ h
          | some taken => exact .ok _ h
  case ret => exact kin.takeReturn (fun htnt => hbranch c (by rw [htnt]; rfl) h) h
  case indirectCall =>
    refine kin.takeTarget (fun htnt => hbranch _ ?_ hpushed) hpushed
    have htnt : c.flow.tnt = [] := htnt
    rw [htnt]
    rfl
  case indirectJump => exact kin.takeTarget (fun htnt => hbranch c (by rw [htnt]; rfl) h) h
  case far => exact kin.takeTarget (fun htnt => hbranch c (by rw [htnt]; rfl) h) h

/-- Moving on from the last instruction. -/
theorem resolve
    (hbranch : ∀ c' ∈ c.asked?, ∀ {d' : Cursor}, R c' d' → Agree R E c'.nextBranch d'.nextBranch)
    (h : R c d) : Agree R E (resolve c) (resolve d) := by
  have halike := kin.alike h
  cases hc : c.flow.pending with
  | none =>
      have hd : d.flow.pending = none := halike.pending ▸ hc
      rw [resolve_none hc, resolve_none hd]
      exact .ok _ h
  | some p =>
      have hd : d.flow.pending = some p := halike.pending ▸ hc
      have hasked : c.asked? = asking p (c.withPending none) := by
        unfold asked?
        rw [hc]
      have hagree := kin.successor p (hasked ▸ hbranch) (kin.withPending none h)
      rw [resolve_some hc, resolve_some hd]
      generalize Cursor.successor p (c.withPending none) = r at hagree ⊢
      generalize Cursor.successor p (d.withPending none) = s at hagree ⊢
      cases hagree with
      | error he h => exact .error he h
      | ok ip h =>
          cases ip with
          | none => exact .ok _ h
          | some ip => exact .ok _ (kin.withIp ip h)

/-- A whole step, for walks that count their steps alike and find the same instructions. -/
theorem step (hsteps : ∀ {c d : Cursor}, R c d → c.steps = d.steps)
    (hcount : ∀ {c d : Cursor}, R c d → R c.countStep d.countStep)
    (hrunaway : ∀ ip n, E (.runaway ip n) (.runaway ip n))
    (hfetch : ∀ {c d : Cursor} (ip : UInt64), R c d → Agree R E (fetch ip c) (fetch ip d))
    (hresolve : Agree R E (Cursor.resolve c) (Cursor.resolve d))
    (hlocate : ∀ {c' d' : Cursor}, Cursor.resolve c = .ok true c' → R c' d' →
      Agree R E c'.locate d'.locate) : Agree R E (Cursor.step c) (Cursor.step d) := by
  rw [step_eq, step_eq]
  generalize hc : Cursor.resolve c = r at hresolve ⊢
  generalize Cursor.resolve d = s at hresolve ⊢
  cases hresolve with
  | error he h => exact .error he h
  | @ok going c d h =>
      cases going with
      | false => exact .ok _ h
      | true =>
          have hlocate := hlocate hc h
          simp only
          generalize c.locate = r at hlocate ⊢
          generalize d.locate = s at hlocate ⊢
          cases hlocate with
          | error he h => exact .error he h
          | @ok ip c d h =>
              cases ip with
              | none => exact .ok _ h
              | some ip =>
                  -- The count is looked at before the code, and it is the same on both sides.
                  simp only
                  rw [← hsteps h]
                  by_cases hmax : c.steps = maxSteps
                  · rw [if_pos hmax, if_pos hmax]
                    exact .error (hrunaway _ _) h
                  · have hagree := hfetch ip (hcount h)
                    rw [if_neg hmax, if_neg hmax]
                    generalize fetch ip c.countStep = r at hagree ⊢
                    generalize fetch ip d.countStep = s at hagree ⊢
                    cases hagree with
                    | error he h => exact .error he h
                    | ok found h => exact .ok _ (kin.withPending _ h)

end Kindred

/-! ## Finding the next address -/

/-- The parts of a step that read packets. -/
inductive Part where
  | event
  | branch
  | acquire
  | async (ip : UInt64)
  | locate

/-- What the parts are made of: at `c` the part `a` uses the part `b` at `d`. -/
inductive Uses : Part → Cursor → Part → Cursor → Prop
  | branchEvent (c : Cursor) : Uses .branch c .event c
  | branchAgain {c d : Cursor} {ip : Option UInt64}
      (h : nextEvent c = .ok (some (.status ip)) d) : Uses .branch c .branch d
  | acquireEvent (c : Cursor) : Uses .acquire c .event c
  | acquireTnt {c d : Cursor} (h : nextEvent c = .ok (some .tnt) d) :
      Uses .acquire c .acquire (d.withTnt [])
  | acquireAgain {c d : Cursor} {event : FlowEvent} (h : nextEvent c = .ok (some event) d)
      (hres : resumption? event = none) (htnt : event ≠ .tnt) : Uses .acquire c .acquire d
  | asyncFirst {c : Cursor} {ip : UInt64} (htnt : c.flow.tnt = [])
      (hahead : c.asyncAhead ip = .ok true) : Uses (.async ip) c .event c
  | asyncSecond {c d : Cursor} {ip : UInt64} {event : FlowEvent} (htnt : c.flow.tnt = [])
      (hahead : c.asyncAhead ip = .ok true) (h : nextEvent c = .ok (some event) d) :
      Uses (.async ip) c .event d
  | locateAcquire {c : Cursor} (hip : c.flow.ip = none) : Uses .locate c .acquire c
  | locateAsync {c : Cursor} {ip : UInt64} (hip : c.flow.ip = some ip) :
      Uses .locate c (.async ip) c
  | acquired {c d : Cursor} (hip : c.flow.ip = none) (h : acquire c = .ok true d) :
      Uses .locate c .locate d
  | handled {c d : Cursor} {ip : UInt64} (hip : c.flow.ip = some ip)
      (h : asyncEvent c ip = .ok true d) : Uses .locate c .locate d

/-- What two walks have to share for their paths to be the same in the states in which, by `S`, a
part of a step is looked at.  A part that is looked at uses only such parts. -/
structure Scoped (S : Part → Cursor → Prop) (R : Cursor → Cursor → Prop)
    (E : DecodeError → DecodeError → Prop) : Prop extends Kindred R E where
  uses {a b : Part} {c d : Cursor} : Uses a c b d → S a c → S b d
  nextEvent {c d : Cursor} : R c d → S .event c → Agree R E c.nextEvent d.nextEvent
  asyncAhead {c d : Cursor} (ip : UInt64) : R c d → c.flow.tnt = [] → S (.async ip) c →
    (∃ ahead, c.asyncAhead ip = .ok ahead ∧ d.asyncAhead ip = .ok ahead) ∨
      ∃ e e', c.asyncAhead ip = .error e ∧ d.asyncAhead ip = .error e' ∧
        E (.packet e) (.packet e')

namespace Scoped

variable {S : Part → Cursor → Prop} (sco : Scoped S R E) {c d : Cursor}

include sco

theorem nextBranch (h : R c d) (hs : S .branch c) : Agree R E c.nextBranch d.nextBranch := by
  -- Each event read leaves fewer bytes.
  induction hn : c.reader.rest.length using Nat.strongRecOn generalizing c d with
  | ind n ih =>
      have hagree := sco.nextEvent h (sco.uses (.branchEvent c) hs)
      rw [nextBranch_eq c, nextBranch_eq d]
      generalize hc : c.nextEvent = r at hagree ⊢
      generalize d.nextEvent = s at hagree ⊢
      cases hagree with
      | error he h => exact .error he h
      | ok event h =>
          rcases event with _ | _ | ⟨kind, ip⟩ | ip
          · exact .ok _ h
          · exact .ok _ h
          · cases kind with
            | tip => exact .ok _ h
            | pgd => exact .ok _ h
            | _ => exact .error (sco.desync _ h) h
          · exact ih _ (hn ▸ nextEvent_lt hc) h (sco.uses (.branchAgain hc) hs) rfl

theorem acquire (h : R c d) (hs : S .acquire c) : Agree R E c.acquire d.acquire := by
  -- Both walks throw the same events away until one names a place.
  induction hn : c.reader.rest.length using Nat.strongRecOn generalizing c d with
  | ind n ih =>
      have hagree := sco.nextEvent h (sco.uses (.acquireEvent c) hs)
      rw [acquire_eq c, acquire_eq d]
      generalize hc : c.nextEvent = r at hagree ⊢
      generalize d.nextEvent = s at hagree ⊢
      cases hagree with
      | error he h => exact .error he h
      | ok event h =>
          cases event with
          | none => exact .ok _ h
          | some event =>
              have hlt := nextEvent_lt hc
              simp only
              cases hres : resumption? event with
              | some ip => exact .ok _ (sco.withTnt [] (sco.withIp (some ip) h))
              | none =>
                  by_cases htnt : event = .tnt
                  · subst htnt
                    exact ih _ (hn ▸ hlt) (sco.withTnt [] h) (sco.uses (.acquireTnt hc) hs) rfl
                  · have hagain := sco.uses (.acquireAgain hc hres htnt) hs
                    cases event with
                    | tnt => exact absurd rfl htnt
                    | ip kind ip => exact ih _ (hn ▸ hlt) h hagain rfl
                    | status ip => exact ih _ (hn ▸ hlt) h hagain rfl

theorem asyncEvent (ip : UInt64) (h : R c d) (hs : S (.async ip) c) :
    Agree R E (c.asyncEvent ip) (d.asyncEvent ip) := by
  unfold Cursor.asyncEvent
  rw [← (sco.alike h).tnt]
  cases hempty : c.flow.tnt.isEmpty with
  | false => exact .ok _ h
  | true =>
      have htnt := List.isEmpty_iff.1 hempty
      simp only [if_true]
      rcases sco.asyncAhead ip h htnt hs with ⟨ahead, hc, hd⟩ | ⟨e, e', hc, hd, he⟩
      · rw [hc, hd]
        cases ahead with
        | false => exact .ok _ h
        | true =>
            have hfirst := sco.nextEvent h (sco.uses (.asyncFirst htnt hc) hs)
            simp only
            generalize hc' : c.nextEvent = r at hfirst ⊢
            generalize d.nextEvent = s at hfirst ⊢
            cases hfirst with
            | error he h => exact .error he h
            | @ok event c' d' h =>
                cases event with
                | none => exact .ok _ h
                | some event =>
                    -- The second packet is read behind the first one.
                    have hsecond := sco.nextEvent h (sco.uses (.asyncSecond htnt hc hc') hs)
                    simp only
                    generalize c'.nextEvent = r at hsecond ⊢
                    generalize d'.nextEvent = s at hsecond ⊢
                    cases hsecond with
                    | error he h => exact .error he h
                    | ok event h => exact .ok _ (sco.toKindred.asyncTarget event h)
      · rw [hc, hd]
        exact .error he h

/-- Finding the next address. -/
theorem locate (h : R c d) (hs : S .locate c) : Agree R E c.locate d.locate := by
  -- Acquiring a place and an asynchronous event both read a packet, so again bytes get fewer.
  induction hn : c.reader.rest.length using Nat.strongRecOn generalizing c d with
  | ind n ih =>
      cases hip : c.flow.ip with
      | none =>
          have hd : d.flow.ip = none := (sco.alike h).ip ▸ hip
          have hagree := sco.acquire h (sco.uses (.locateAcquire hip) hs)
          rw [locate_none hip, locate_none hd]
          generalize hc : c.acquire = r at hagree ⊢
          generalize d.acquire = s at hagree ⊢
          cases hagree with
          | error he h => exact .error he h
          | ok found h =>
              cases found with
              | false => exact .ok _ h
              | true => exact ih _ (hn ▸ acquire_lt hc) h (sco.uses (.acquired hip hc) hs) rfl
      | some ip =>
          have hd : d.flow.ip = some ip := (sco.alike h).ip ▸ hip
          have hagree := sco.asyncEvent ip h (sco.uses (.locateAsync hip) hs)
          rw [locate_some hip, locate_some hd]
          generalize hc : c.asyncEvent ip = r at hagree ⊢
          generalize d.asyncEvent ip = s at hagree ⊢
          cases hagree with
          | error he h => exact .error he h
          | ok found h =>
              cases found with
              | false => exact .ok _ h
              | true => exact ih _ (hn ▸ asyncEvent_lt hc) h (sco.uses (.handled hip hc) hs) rfl

end Scoped

/-! ## Within a limit -/

/-- The part stays within a limit. -/
def Part.Within (W : Option DecodeError → Cursor → Prop) : Part → Cursor → Prop
  | .event, c => Cursor.Within W c.nextEvent
  | .branch, c => Cursor.Within W c.nextBranch
  | .acquire, c => Cursor.Within W c.acquire
  | .async ip, c => Cursor.Within W (c.asyncEvent ip)
  | .locate, c => Cursor.Within W c.locate

/-- What stays within the limit stays there on the way. -/
theorem Part.within_of_uses {W : Option DecodeError → Cursor → Prop} {a b : Part} {c d : Cursor}
    (hW : ∀ {α : Type} {c : Cursor} {r : Walked α}, Follows c r → Cursor.Within W r → W none c)
    (huses : Uses a c b d) (hw : a.Within W c) : b.Within W d := by
  cases huses with
  | branchEvent =>
      have hw : Cursor.Within W c.nextBranch := hw
      show Cursor.Within W c.nextEvent
      rw [nextBranch_eq] at hw
      generalize c.nextEvent = r at hw ⊢
      rcases r with ⟨_ | _ | ⟨_ | _ | _ | _, ip⟩ | ip, c'⟩ | ⟨e, c'⟩
      case ok.some.status => exact hW (nextBranch_follows c') hw
      case ok.some.ip.pge => exact hW (.desync c' _) hw
      case ok.some.ip.fup => exact hW (.desync c' _) hw
      all_goals exact hw
  | branchAgain h =>
      have hw : Cursor.Within W c.nextBranch := hw
      rw [nextBranch_eq, h] at hw
      exact hw
  | acquireEvent =>
      have hw : Cursor.Within W c.acquire := hw
      show Cursor.Within W c.nextEvent
      rw [acquire_eq] at hw
      generalize c.nextEvent = r at hw ⊢
      rcases r with ⟨_ | event, c'⟩ | ⟨e, c'⟩
      · exact hw
      · have hclear : Reads c' [] (c'.withTnt []) := .still (.withFlow c' rfl rfl)
        simp only at hw
        split at hw
        next ip hip =>
          have hplace : Follows c' (.ok true ((c'.withIp (some ip)).withTnt []) : Walked Bool) :=
            .ok (.withFlow c' rfl rfl)
          exact hW hplace hw
        next =>
          split at hw
          next => exact hW (.after hclear (acquire_follows _)) hw
          next => exact hW (acquire_follows c') hw
      · exact hw
  | acquireTnt h =>
      have hw : Cursor.Within W c.acquire := hw
      rw [acquire_eq, h] at hw
      exact hw
  | @acquireAgain _ _ event h hres htnt =>
      have hw : Cursor.Within W c.acquire := hw
      rw [acquire_eq, h] at hw
      simp only [hres] at hw
      cases event with
      | tnt => exact absurd rfl htnt
      | ip kind ip => exact hw
      | status ip => exact hw
  | @asyncFirst _ ip htnt hahead =>
      have hw : Cursor.Within W (c.asyncEvent ip) := hw
      show Cursor.Within W c.nextEvent
      unfold asyncEvent at hw
      rw [htnt, hahead] at hw
      simp only [List.isEmpty_nil, if_true] at hw
      generalize c.nextEvent = r at hw ⊢
      rcases r with ⟨_ | event, c'⟩ | ⟨e, c'⟩
      · exact hw
      · have hsecond := nextEvent_follows c'
        simp only at hw
        generalize c'.nextEvent = r at hw hsecond
        rcases r with ⟨second, f⟩ | ⟨e, f⟩
        · obtain ⟨ps, hps⟩ := hsecond
          exact hW (.after hps (.ok (asyncTarget_still second f))) hw
        · exact hW hsecond hw
      · exact hw
  | @asyncSecond _ _ ip event htnt hahead h =>
      have hw : Cursor.Within W (c.asyncEvent ip) := hw
      show Cursor.Within W d.nextEvent
      unfold asyncEvent at hw
      rw [htnt, hahead, h] at hw
      simp only [List.isEmpty_nil, if_true] at hw
      generalize d.nextEvent = r at hw ⊢
      rcases r with ⟨second, f⟩ | ⟨e, f⟩
      · exact hW (.ok (asyncTarget_still second f)) hw
      · exact hw
  | locateAcquire hip =>
      have hw : Cursor.Within W c.locate := hw
      show Cursor.Within W c.acquire
      rw [locate_none hip] at hw
      generalize c.acquire = r at hw ⊢
      rcases r with ⟨_ | _, c'⟩ | ⟨e, c'⟩
      · exact hw
      · exact hW (locate_follows c') hw
      · exact hw
  | @locateAsync _ ip hip =>
      have hw : Cursor.Within W c.locate := hw
      show Cursor.Within W (c.asyncEvent ip)
      rw [locate_some hip] at hw
      generalize c.asyncEvent ip = r at hw ⊢
      rcases r with ⟨_ | _, c'⟩ | ⟨e, c'⟩
      · exact hw
      · exact hW (locate_follows c') hw
      · exact hw
  | acquired hip h =>
      have hw : Cursor.Within W c.locate := hw
      rw [locate_none hip, h] at hw
      exact hw
  | handled hip h =>
      have hw : Cursor.Within W c.locate := hw
      rw [locate_some hip, h] at hw
      exact hw

namespace Simulation

variable {W : Option DecodeError → Cursor → Prop} (sim : Simulation W R E) {c d : Cursor}

include sim

theorem toScoped : Scoped (Part.Within W) R E where
  toKindred := sim.toKindred
  uses := Part.within_of_uses sim.within
  nextEvent := sim.nextEvent
  asyncAhead := sim.asyncAhead

theorem nextBranch (h : R c d) (hw : Within W c.nextBranch) :
    Agree R E c.nextBranch d.nextBranch :=
  sim.toScoped.nextBranch h hw

theorem locate (h : R c d) (hw : Within W c.locate) : Agree R E c.locate d.locate :=
  sim.toScoped.locate h hw

end Simulation

/-- A whole step of walks that agree without a limit, that count their steps alike and that find the
same instructions. -/
theorem Simulation.step (sim : Simulation (fun _ _ => True) R E) {c d : Cursor}
    (hsteps : ∀ {c d : Cursor}, R c d → c.steps = d.steps)
    (hcount : ∀ {c d : Cursor}, R c d → R c.countStep d.countStep)
    (hrunaway : ∀ ip n, E (.runaway ip n) (.runaway ip n))
    (hfetch : ∀ {c d : Cursor} (ip : UInt64), R c d → Agree R E (fetch ip c) (fetch ip d))
    (h : R c d) : Agree R E (Cursor.step c) (Cursor.step d) := by
  have within {α : Type} (r : Walked α) : Within (fun _ _ => True) r := by
    cases r <;> trivial
  have hresolve := sim.toKindred.resolve (fun _ _ _ h => sim.nextBranch h (within _)) h
  exact sim.toKindred.step hsteps hcount hrunaway hfetch hresolve
    fun _ h => sim.locate h (within _)

end Cursor

end BranchWatch
