import BranchWatch.Proofs.Packet.Grouping
import BranchWatch.Proofs.Walk.Timing

/-!
# Branch outcomes that one of two walks has not read yet

The walk decides in many places by whether an outcome is waiting or has to be read.  Where two
windows have the same branch outcomes in other packets, this differs: the first walk may have read
outcomes that the second one still has in front (`Cursor.Owes`).  Still each part of a step gives
the same answer in both (`Cursor.Concur`), since an outcome does the same from the queue as from
a packet.

* Where nothing is owed both walks read the same event (`Owes.nextEvent`), and if this is the news
  of outcomes the second one may owe some from there on.
* Where outcomes are owed only the second walk has to read (`Owes.nextEvent_of_owed`), and this
  happens where it runs out of outcomes and the first one does not (`Owes.ask`).
* While the walks wait for an address both throw outcomes away, each at its own time.  What is
  waiting then does not matter before the address has come (`Owes.acquire`).
-/

namespace BranchWatch

namespace FlowState

/-- The same path without the outcomes that wait. -/
def forgetTnt (s : FlowState) : FlowState := { s with tnt := [] }

theorem forgetTnt_absorb {s t : FlowState} (h : s.forgetTnt = t.forgetTnt) (p : Packet) :
    (s.absorb p).forgetTnt = (t.absorb p).forgetTnt := by
  have hforget (s : FlowState) : (s.absorb p).forgetTnt = (s.forgetTnt.absorb p).forgetTnt := by
    cases p <;> rfl
  rw [hforget s, hforget t, h]

theorem reset_eq_of_forgetTnt {s t : FlowState} (h : s.forgetTnt = t.forgetTnt) :
    s.reset = t.reset := by
  have hmode : s.mode = t.mode := congrArg (·.mode) h
  unfold reset
  rw [hmode]

end FlowState

namespace Cursor

variable {α : Type} {c d : Cursor} {owed : List Bool} {known : Prop}

/-- Both walks know the same, but the second one still has the outcomes `owed` in front of it.
Where the outcomes that wait are `known`, the first walk has these waiting behind the others. -/
structure Owes (known : Prop) (owed : List Bool) (c d : Cursor) : Prop where
  rest : Regrouped owed c.reader.rest d.reader.rest
  poised : c.reader.Poised c.lastOffset
  poised' : d.reader.Poised d.lastOffset
  flow : c.flow.forgetTnt = d.flow.forgetTnt
  tnt : known → c.flow.tnt = d.flow.tnt ++ owed
  steps : d.steps ≤ c.steps
  steps_le : c.steps ≤ maxSteps
  inPsb : c.inPsb = d.inPsb
  done : c.done = d.done
  decoder : c.decoder = d.decoder
  rebuilt : c.rebuilt = d.rebuilt

/-- Two results concur: the same answer or related errors.  Behind an answer the outcomes that wait
are known if it is among the answers `known`; behind an overflow nothing is owed. -/
inductive Concur (known : α → Prop) : Walked α → Walked α → Prop
  | ok (a : α) {owed : List Bool} {c d : Cursor} (h : Owes (known a) owed c d) :
      Concur known (.ok a c) (.ok a d)
  | error {e e' : DecodeError} {owed : List Bool} {c d : Cursor} (he : Elsewhere e e')
      (howed : owed = [] ∨ ∀ offset, e ≠ .overflow offset) (h : Owes False owed c d) :
      Concur known (.error e c) (.error e' d)

/-- Two walks have heard the same from the packets.  With the answer `news` outcomes have come, and
of these the second walk may have read only some. -/
inductive Heard (news : α) (known : Prop) : Walked α → Walked α → Prop
  | news {owed : List Bool} {c d : Cursor} (h : Owes known owed c d)
      (hready : d.flow.tnt = [] → owed = []) : Heard news known (.ok news c) (.ok news d)
  | same (a : α) {c d : Cursor} (h : Owes known [] c d) : Heard news known (.ok a c) (.ok a d)
  | error {e e' : DecodeError} {c d : Cursor} (he : Elsewhere e e') (h : Owes known [] c d) :
      Heard news known (.error e c) (.error e' d)

/-- Where the next outcome is, if there is one. -/
inductive Waiting (owed : List Bool) (c d : Cursor) : Prop
  /-- It waits in both walks. -/
  | both {taken : Bool} {rest : List Bool} (hc : c.flow.tnt = taken :: (rest ++ owed))
      (hd : d.flow.tnt = taken :: rest)
  /-- Both walks have to read it. -/
  | neither (hc : c.flow.tnt = []) (hd : d.flow.tnt = []) (howed : owed = [])
  /-- Only the second walk has to read it. -/
  | first {taken : Bool} {rest : List Bool} (hc : c.flow.tnt = taken :: rest)
      (hd : d.flow.tnt = []) (howed : owed ≠ [])

namespace Owes

theorem mono {known' : Prop} (h : Owes known owed c d) (hk : known' → known) :
    Owes known' owed c d :=
  { h with tnt := fun hknown => h.tnt (hk hknown) }

theorem withTnt {known' : Prop} {tnt tnt' : List Bool} (h : Owes known owed c d)
    (htnt : known' → tnt = tnt' ++ owed) : Owes known' owed (c.withTnt tnt) (d.withTnt tnt') :=
  { h with tnt := htnt }

theorem withReturns (returns : ReturnStack) (h : Owes known owed c d) :
    Owes known owed (c.withReturns returns) (d.withReturns returns) :=
  { h with flow := congrArg (fun s : FlowState => { s with returns }) h.flow }

theorem withIp (ip : Option UInt64) (h : Owes known owed c d) :
    Owes known owed (c.withIp ip) (d.withIp ip) :=
  { h with flow := congrArg (fun s : FlowState => { s with ip }) h.flow }

theorem withPending (pending : Option Pending) (h : Owes known owed c d) :
    Owes known owed (c.withPending pending) (d.withPending pending) :=
  { h with flow := congrArg (fun s : FlowState => { s with pending }) h.flow }

theorem desync {K : α → Prop} (h : Owes known owed c d) (expected : Expected) :
    Concur K (.error (c.desync expected) c) (.error (d.desync expected) d) :=
  .error (.desync _ _ _) (.inr nofun) (h.mono False.elim)

theorem ip_eq (h : Owes known owed c d) : c.flow.ip = d.flow.ip :=
  congrArg (·.ip) h.flow

theorem returns_eq (h : Owes known owed c d) : c.flow.returns = d.flow.returns :=
  congrArg (·.returns) h.flow

theorem pending_eq (h : Owes known owed c d) : c.flow.pending = d.flow.pending :=
  congrArg (·.pending) h.flow

theorem waiting (h : Owes True owed c d) : Waiting owed c d := by
  have htnt := h.tnt trivial
  cases hd : d.flow.tnt with
  | cons taken rest => exact .both (by rw [htnt, hd]; rfl) hd
  | nil =>
      rw [hd] at htnt
      cases owed with
      | nil => exact .neither htnt hd rfl
      | cons taken rest => exact .first htnt hd (List.cons_ne_nil _ _)

/-! ## Reading packets -/

/-- Both walks read a packet, not always the same one. -/
theorem consume_both {p q : Packet} {n m : Nat} {later : List Bool} (h : Owes known [] c d)
    (hc : c.reader.peek = .ok (some (p, n))) (hd : d.reader.peek = .ok (some (q, m)))
    (hrest : Regrouped later (c.reader.advance n).rest (d.reader.advance m).rest)
    (hflow : (c.flow.absorb p).forgetTnt = (d.flow.absorb q).forgetTnt)
    (htnt : known → (c.flow.absorb p).tnt = (d.flow.absorb q).tnt ++ later)
    (hpsb : inPsbAfter c.inPsb p = inPsbAfter d.inPsb q) :
    Owes known later (c.consume p n) (d.consume q m) where
  rest := hrest
  poised := h.poised.aligned.poised_advance hc
  poised' := h.poised'.aligned.poised_advance hd
  flow := hflow
  tnt := htnt
  steps := Nat.le_refl 0
  steps_le := Nat.zero_le _
  inPsb := hpsb
  done := h.done
  decoder := h.decoder
  rebuilt := h.rebuilt

theorem tnt_eq (h : Owes known [] c d) (hknown : known) : c.flow.tnt = d.flow.tnt :=
  (h.tnt hknown).trans (List.append_nil _)

/-- Both walks read a packet that they have in common. -/
theorem consume {p : Packet} {n : Nat} (h : Owes known [] c d)
    (hc : c.reader.peek = .ok (some (p, n))) (hd : d.reader.peek = .ok (some (p, n)))
    (hrest : Regrouped [] (c.reader.advance n).rest (d.reader.advance n).rest) :
    Owes known [] (c.consume p n) (d.consume p n) := by
  refine h.consume_both hc hd hrest (FlowState.forgetTnt_absorb h.flow p) (fun hknown => ?_)
    (congrArg (inPsbAfter · p) h.inPsb)
  rw [List.append_nil]
  cases p with
  | tnt taken => exact congrArg (· ++ taken) (h.tnt_eq hknown)
  | _ => exact h.tnt_eq hknown

/-- The first walk reads a packet, and the second one a part of its outcomes. -/
theorem consume_whole {taken part later : List Bool} {n m : Nat} (h : Owes known [] c d)
    (hc : c.reader.peek = .ok (some (.tnt taken, n)))
    (hd : d.reader.peek = .ok (some (.tnt part, m))) (htaken : taken = part ++ later)
    (hrest : Regrouped later (c.reader.advance n).rest (d.reader.advance m).rest) :
    Owes known later (c.consume (.tnt taken) n) (d.consume (.tnt part) m) := by
  refine h.consume_both hc hd hrest h.flow (fun hknown => ?_) h.inPsb
  show c.flow.tnt ++ taken = d.flow.tnt ++ part ++ later
  rw [h.tnt_eq hknown, htaken, List.append_assoc]

/-- The second walk reads the first of the outcomes that are owed. -/
theorem consume_part {taken later : List Bool} {n : Nat} (h : Owes known (taken ++ later) c d)
    (hd : d.reader.peek = .ok (some (.tnt taken, n)))
    (hrest : Regrouped later c.reader.rest (d.reader.advance n).rest) :
    Owes known later c (d.consume (.tnt taken) n) :=
  { h with
    rest := hrest
    poised' := h.poised'.aligned.poised_advance hd
    flow := h.flow
    tnt := fun hknown => (h.tnt hknown).trans (List.append_assoc _ _ _).symm
    steps := Nat.zero_le _ }

/-- Where outcomes are owed the second walk reads some of them. -/
theorem nextEvent_of_owed (h : Owes known owed c d) (howed : owed ≠ []) :
    ∃ later f, d.nextEvent = .ok (some .tnt) f ∧ Owes known later c f ∧ f.flow.tnt ≠ [] := by
  obtain ⟨taken, later, n, hpeek, htaken, rfl, hrest⟩ := PacketReader.peek_of_owed h.rest howed
  refine ⟨later, d.consume (.tnt taken) n, ?_, h.consume_part hpeek hrest, ?_⟩
  · rw [nextEvent_of_packet hpeek]
    rfl
  · exact List.append_ne_nil_of_right_ne_nil d.flow.tnt htaken

theorem nextBranch_of_owed (h : Owes known owed c d) (howed : owed ≠ []) :
    ∃ later f, d.nextBranch = .ok (some .tnt) f ∧ Owes known later c f ∧ f.flow.tnt ≠ [] := by
  obtain ⟨later, f, hread, hbehind, hready⟩ := h.nextEvent_of_owed howed
  refine ⟨later, f, ?_, hbehind, hready⟩
  rw [nextBranch_eq, hread]

theorem event_eq (h : Owes known owed c d) (offset : Nat) (p : Packet) :
    c.flow.event c.inPsb offset p = d.flow.event d.inPsb offset p := by
  rw [h.inPsb]
  show c.flow.forgetTnt.event d.inPsb offset p = d.flow.forgetTnt.event d.inPsb offset p
  rw [h.flow]

theorem nextEvent_of_regrouped {u v : List UInt8} (hregrouped : Regrouped owed u v)
    (howed : owed = []) (hc : c.reader.rest = u) (hd : d.reader.rest = v)
    (h : Owes known [] c d) : Heard (some .tnt) known c.nextEvent d.nextEvent := by
  -- Induction on the packets in common; where outcomes come in others both walks stop.
  induction hregrouped generalizing c d with
  | nil =>
      rw [nextEvent_of_end (PacketReader.peek_of_nil hc),
        nextEvent_of_end (PacketReader.peek_of_nil hd)]
      exact .same none h
  | @packet bytes u v p hparse hrest ih =>
      have hpeek := PacketReader.peek_of_rest hc hparse
      have hpeek' := PacketReader.peek_of_rest hd hparse
      have hc' := PacketReader.advance_of_rest hc
      have hd' := PacketReader.advance_of_rest hd
      have hread := h.consume hpeek hpeek' (by rw [hc', hd']; exact hrest)
      rw [nextEvent_of_packet hpeek, nextEvent_of_packet hpeek', h.event_eq]
      rcases d.flow.event_cases d.inPsb p with ⟨_ | event, hevent⟩ | hevent
      · rw [hevent, hevent]
        exact ih rfl hc' hd' hread
      · rw [hevent, hevent]
        exact .same _ hread
      · rw [hevent, hevent]
        exact .error (.overflow _ _) hread
  | @whole bytes u v taken hparse htaken hrest _ =>
      have hpeek := PacketReader.peek_of_rest hc hparse
      rw [← PacketReader.advance_of_rest hc, ← hd] at hrest
      obtain ⟨part, later, m, hpeek', hpart, hsum, hrest⟩ :=
        PacketReader.peek_of_owed hrest htaken
      rw [nextEvent_of_packet hpeek, nextEvent_of_packet hpeek']
      refine .news (h.consume_whole hpeek hpeek' hsum hrest) fun hnil => ?_
      exact absurd hnil (List.append_ne_nil_of_right_ne_nil d.flow.tnt hpart)
  | part _ htaken => exact absurd howed (List.append_ne_nil_of_left_ne_nil htaken _)

theorem nextEvent (h : Owes known [] c d) : Heard (some .tnt) known c.nextEvent d.nextEvent :=
  nextEvent_of_regrouped h.rest rfl rfl rfl h

theorem nextBranch (h : Owes known [] c d) :
    Heard (some .tnt) known c.nextBranch d.nextBranch := by
  -- Each event read leaves fewer bytes.
  induction hn : c.reader.rest.length using Nat.strongRecOn generalizing c d with
  | ind n ih =>
      have hheard := h.nextEvent
      rw [nextBranch_eq c, nextBranch_eq d]
      generalize hc : c.nextEvent = r at hheard ⊢
      generalize d.nextEvent = s at hheard ⊢
      cases hheard with
      | error he h => exact .error he h
      | news h hready => exact .news h hready
      | same event h =>
          rcases event with _ | _ | ⟨kind, ip⟩ | ip
          · exact .same _ h
          · exact .same _ h
          · cases kind with
            | tip => exact .same _ h
            | pgd => exact .same _ h
            | _ => exact .error (.desync _ _ _) h
          · exact ih _ (hn ▸ nextEvent_lt hc) h rfl

/-! ## Moving on from an instruction -/

theorem popTnt (h : Owes True owed c d) (hready : d.flow.tnt = [] → owed = []) :
    Concur (fun _ => True) (popTnt c) (popTnt d) := by
  cases h.waiting with
  | both hc hd =>
      rw [popTnt_cons hc, popTnt_cons hd]
      exact .ok _ (h.withTnt fun _ => rfl)
  | neither hc hd =>
      rw [popTnt_nil hc, popTnt_nil hd]
      exact .ok _ h
  | first _ hd howed => exact absurd (hready hd) howed

theorem compressedReturn (h : Owes True owed c d) (hready : d.flow.tnt = [] → owed = []) :
    Concur (fun _ => True) (compressedReturn c) (compressedReturn d) := by
  cases h.waiting with
  | @both taken rest hc hd =>
      have hrest : Owes True owed (c.withTnt (rest ++ owed)) (d.withTnt rest) :=
        h.withTnt fun _ => rfl
      cases taken with
      | false =>
          rw [compressedReturn_false hc, compressedReturn_false hd]
          exact hrest.desync _
      | true =>
          rw [compressedReturn_true hc, compressedReturn_true hd, h.returns_eq]
          rcases d.flow.returns.pop? with _ | ⟨address, returns⟩
          · exact hrest.desync _
          · exact .ok _ (hrest.withReturns returns)
  | neither hc hd =>
      rw [compressedReturn_nil hc, compressedReturn_nil hd]
      exact h.desync _
  | first _ hd howed => exact absurd (hready hd) howed

theorem returned (h : Owes True owed c d) (hready : d.flow.tnt = [] → owed = []) :
    Concur (fun _ => True) (returned (Cursor.compressedReturn c))
      (returned (Cursor.compressedReturn d)) := by
  have hconcur := h.compressedReturn hready
  generalize Cursor.compressedReturn c = r at hconcur ⊢
  generalize Cursor.compressedReturn d = s at hconcur ⊢
  cases hconcur with
  | error he howed h => exact .error he howed h
  | ok address h => exact .ok _ h

/-- A part of a step that goes on with `use` where an outcome is waiting, and otherwise reads up to
the next answer: with `use` behind outcomes, with `go` behind a target.  The second walk may have to
read where the first one has an outcome waiting, but then it finds outcomes. -/
theorem ask {a : α} {f use : Cursor → Walked α} {go : Option UInt64 → Cursor → Walked α}
    (hcons : ∀ {c : Cursor} {taken : Bool} {rest : List Bool}, c.flow.tnt = taken :: rest →
      f c = use c)
    (hnil : ∀ {c : Cursor}, c.flow.tnt = [] → f c = match Cursor.nextBranch c with
      | .ok none d => .ok a d
      | .ok (some .tnt) d => use d
      | .ok (some (.target ip)) d => go ip d
      | .error e d => .error e d)
    (huse : ∀ {owed : List Bool} {c d : Cursor}, Owes True owed c d →
      (d.flow.tnt = [] → owed = []) → Concur (fun _ => True) (use c) (use d))
    (hgo : ∀ {c d : Cursor} (ip : Option UInt64), Owes True [] c d →
      Concur (fun _ => True) (go ip c) (go ip d))
    (h : Owes True owed c d) : Concur (fun _ => True) (f c) (f d) := by
  cases h.waiting with
  | both hc hd =>
      rw [hcons hc, hcons hd]
      exact huse h fun hempty => absurd (hd.symm.trans hempty) (List.cons_ne_nil _ _)
  | neither hc hd howed =>
      subst howed
      have hheard := h.nextBranch
      rw [hnil hc, hnil hd]
      generalize c.nextBranch = r at hheard ⊢
      generalize d.nextBranch = s at hheard ⊢
      cases hheard with
      | error he h => exact .error he (.inl rfl) (h.mono False.elim)
      | news h hready => exact huse h hready
      | same branch h =>
          rcases branch with _ | _ | ip
          · exact .ok a h
          · exact huse h fun _ => rfl
          · exact hgo ip h
  | first hc hd howed =>
      obtain ⟨later, f, hread, hbehind, hready⟩ := h.nextBranch_of_owed howed
      rw [hcons hc, hnil hd, hread]
      exact huse hbehind fun hempty => absurd hempty hready

theorem takeTnt (h : Owes True owed c d) :
    Concur (fun _ => True) (takeTnt c) (takeTnt d) :=
  h.ask (fun hc => (takeTnt_cons hc).trans (popTnt_cons hc).symm) takeTnt_nil popTnt
    fun _ h => h.desync _

theorem takeReturn (h : Owes True owed c d) :
    Concur (fun _ => True) (takeReturn c) (takeReturn d) :=
  h.ask takeReturn_cons takeReturn_nil returned fun _ h => .ok _ h

theorem takeTarget (h : Owes True owed c d) :
    Concur (fun _ => True) (takeTarget c) (takeTarget d) :=
  h.ask takeTarget_cons takeTarget_nil (fun h _ => h.desync _) fun _ h => .ok _ h

theorem successor (p : Pending) (h : Owes True owed c d) :
    Concur (fun _ => True) (successor p c) (successor p d) := by
  have hpushed := h.withReturns (d.flow.returns.push p.fallThrough)
  rw [successor_eq, successor_eq, h.returns_eq]
  cases p.flow with
  | next => exact .ok _ h
  | jump => exact .ok _ h
  | call => exact .ok _ hpushed
  | ret => exact h.takeReturn
  | indirectCall => exact hpushed.takeTarget
  | indirectJump => exact h.takeTarget
  | far => exact h.takeTarget
  | conditional target =>
      have hconcur := h.takeTnt
      simp only
      generalize Cursor.takeTnt c = r at hconcur ⊢
      generalize Cursor.takeTnt d = s at hconcur ⊢
      cases hconcur with
      | error he howed h => exact .error he howed h
      | ok taken h => cases taken <;> exact .ok _ h

theorem resolve (h : Owes True owed c d) :
    Concur (fun _ => True) (resolve c) (resolve d) := by
  cases hd : d.flow.pending with
  | none =>
      rw [resolve_none (h.pending_eq.trans hd), resolve_none hd]
      exact .ok _ h
  | some p =>
      have hconcur := (h.withPending none).successor p
      rw [resolve_some (h.pending_eq.trans hd), resolve_some hd]
      generalize Cursor.successor p (c.withPending none) = r at hconcur ⊢
      generalize Cursor.successor p (d.withPending none) = s at hconcur ⊢
      cases hconcur with
      | error he howed h => exact .error he howed h
      | ok ip h =>
          cases ip with
          | none => exact .ok _ h
          | some ip => exact .ok _ (h.withIp ip)

/-! ## Finding the next address -/

/-- Where outcomes are owed no asynchronous event comes next. -/
theorem asyncAhead_of_owed (ip : UInt64) (h : Owes known owed c d) (howed : owed ≠ []) :
    d.asyncAhead ip = .ok false := by
  obtain ⟨taken, hfirst⟩ := PacketReader.firstFlowPacket_of_owed h.rest howed
  unfold Cursor.asyncAhead
  rw [hfirst]

theorem asyncAhead (ip : UInt64) (h : Owes known [] c d) :
    ∃ ahead, c.asyncAhead ip = .ok ahead ∧ d.asyncAhead ip = .ok ahead := by
  have hlast : c.flow.lastIp = d.flow.lastIp := congrArg (·.lastIp) h.flow
  unfold Cursor.asyncAhead
  rw [hlast]
  rcases PacketReader.firstFlowPacket_of_regrouped h.rest rfl rfl rfl with
    ⟨found, hc, hd⟩ | ⟨_, _, hc, hd⟩
  · rw [hc, hd]
    rcases found with _ | p
    · exact ⟨false, rfl, rfl⟩
    · cases p with
      | ip kind payload =>
          cases kind with
          | fup => exact ⟨_, rfl, rfl⟩
          | _ => exact ⟨false, rfl, rfl⟩
      | _ => exact ⟨false, rfl, rfl⟩
  · rw [hc, hd]
    exact ⟨false, rfl, rfl⟩

theorem asyncTarget (event : Option FlowEvent) (h : Owes known owed c d) :
    Owes known owed (c.asyncTarget event) (d.asyncTarget event) := by
  unfold Cursor.asyncTarget
  split
  · exact h.withIp _
  · exact h.withIp _
  · exact h.withIp none
  · exact h

theorem asyncEvent (ip : UInt64) (h : Owes True owed c d) :
    Concur (fun _ => True) (c.asyncEvent ip) (d.asyncEvent ip) := by
  unfold Cursor.asyncEvent
  cases h.waiting with
  | both hc hd =>
      rw [hc, hd]
      exact .ok false h
  | first hc hd howed =>
      rw [hc, hd, h.asyncAhead_of_owed ip howed]
      exact .ok false h
  | neither hc hd howed =>
      subst howed
      obtain ⟨ahead, hahead, hahead'⟩ := h.asyncAhead ip
      rw [hc, hd, hahead, hahead']
      cases ahead with
      | false => exact .ok false h
      | true =>
          obtain ⟨payload, hfirst, _⟩ := firstFlowPacket_of_asyncAhead hahead
          have hheard := h.nextEvent
          simp only [List.isEmpty_nil, if_true]
          generalize hread : c.nextEvent = r at hheard ⊢
          generalize d.nextEvent = s at hheard ⊢
          cases hheard with
          | error he h => exact .error he (.inl rfl) (h.mono False.elim)
          | news => exact absurd rfl (nextEvent_ne_tnt hfirst hread)
          | @same event c' d' h =>
              cases event with
              | none => exact .ok _ h
              | some event =>
                  -- Outcomes in place of the second packet are kept, as if it had not been read.
                  have hsecond := h.nextEvent
                  simp only
                  generalize c'.nextEvent = r at hsecond ⊢
                  generalize d'.nextEvent = s at hsecond ⊢
                  cases hsecond with
                  | error he h => exact .error he (.inl rfl) (h.mono False.elim)
                  | news h _ => exact .ok _ (h.asyncTarget _)
                  | same second h => exact .ok _ (h.asyncTarget second)

theorem acquire (h : Owes known owed c d) :
    Concur (· = true) c.acquire d.acquire := by
  replace h : Owes False owed c d := h.mono False.elim
  -- Each round the second walk reads an event, with or without the first one.
  induction hn : d.reader.rest.length using Nat.strongRecOn generalizing owed c d with
  | ind n ih =>
      by_cases howed : owed = []
      · subst howed
        have hheard := h.nextEvent
        rw [acquire_eq c, acquire_eq d]
        generalize c.nextEvent = r at hheard ⊢
        generalize hd : d.nextEvent = s at hheard ⊢
        cases hheard with
        | error he h => exact .error he (.inl rfl) h
        | news h _ =>
            have hlt := nextEvent_lt hd
            exact ih _ (hn ▸ hlt) (h.withTnt False.elim) rfl
        | same event h =>
            cases event with
            | none => exact .ok false (h.mono Bool.false_ne_true)
            | some event =>
                have hlt := nextEvent_lt hd
                simp only
                cases hres : resumption? event with
                | some ip => exact .ok true ((h.withIp (some ip)).withTnt fun _ => rfl)
                | none =>
                    cases event with
                    | tnt => exact ih _ (hn ▸ hlt) (h.withTnt False.elim) rfl
                    | ip kind ip => exact ih _ (hn ▸ hlt) h rfl
                    | status ip => exact ih _ (hn ▸ hlt) h rfl
      · obtain ⟨later, f, hread, hbehind, _⟩ := h.nextEvent_of_owed howed
        have hcleared : Owes False later c (f.withTnt []) := { hbehind with tnt := False.elim }
        have hlt := nextEvent_lt hread
        rw [acquire_eq d, hread]
        exact ih _ (hn ▸ hlt) hcleared rfl

theorem locate (h : Owes True owed c d) : Concur (· ≠ none) c.locate d.locate := by
  -- Acquiring a place and an asynchronous event both read a packet.
  induction hn : c.reader.rest.length using Nat.strongRecOn generalizing owed c d with
  | ind n ih =>
      cases hd : d.flow.ip with
      | none =>
          have hconcur := h.acquire
          rw [locate_none (h.ip_eq.trans hd), locate_none hd]
          generalize hc : c.acquire = r at hconcur ⊢
          generalize d.acquire = s at hconcur ⊢
          cases hconcur with
          | error he howed h => exact .error he howed h
          | ok found h =>
              cases found with
              | false => exact .ok none (h.mono fun hne => absurd rfl hne)
              | true => exact ih _ (hn ▸ acquire_lt hc) (h.mono fun _ => rfl) rfl
      | some ip =>
          have hconcur := h.asyncEvent ip
          rw [locate_some (h.ip_eq.trans hd), locate_some hd]
          generalize hc : c.asyncEvent ip = r at hconcur ⊢
          generalize d.asyncEvent ip = s at hconcur ⊢
          cases hconcur with
          | error he howed h => exact .error he howed h
          | ok found h =>
              cases found with
              | false => exact .ok (some ip) (h.mono fun _ => trivial)
              | true => exact ih _ (hn ▸ asyncEvent_lt hc) h rfl

end Owes

end Cursor

end BranchWatch
