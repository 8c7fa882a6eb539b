import BranchWatch.Walk.Cursor

/-!
# The steps of the walk as case distinctions

The parts of a step are written as programs that pass a state on and stop at the first error.  Here
each of them is told as what it gives at one state, case by case, which is the form in which the
other modules use them: where outcomes are waiting (`takeTnt_cons`), where none are
(`takeTnt_nil`), and so on up to a whole step (`step_eq`).
-/

namespace BranchWatch

theorem Decoder.rebuild_of_ok {d : Decoder} {image : Image} (h : d.source d.builds = .ok image) :
    d.rebuild = (.ok (), { d with builds := d.builds + 1, image := some image }) := by
  unfold rebuild
  rw [h]

theorem Decoder.rebuild_of_error {d : Decoder} {e : ImageError} (h : d.source d.builds = .error e) :
    d.rebuild = (.error (.image e), { d with builds := d.builds + 1 }) := by
  unfold rebuild
  rw [h]

/-- The decoder behind a request: one more request, and the answer or the old image. -/
theorem Decoder.rebuild_snd (d : Decoder) :
    d.rebuild.2 = { d with
      builds := d.builds + 1
      image := match d.source d.builds with
        | .ok image => some image
        | .error _ => d.image } := by
  unfold rebuild
  cases d.source d.builds <;> rfl

/-- A request does not change how instructions are read. -/
theorem Decoder.rebuild_disassembler (d : Decoder) :
    d.rebuild.2.disassembler = d.disassembler := by
  rw [rebuild_snd]

theorem FlowState.event_of_isTiming {p : Packet} (h : p.isTiming = true) (s : FlowState)
    (inPsb : Bool) (offset : Nat) : s.event inPsb offset p = .ok none := by
  cases p <;> first | rfl | cases h

theorem FlowState.absorb_of_isTiming {p : Packet} (h : p.isTiming = true) (s : FlowState) :
    s.absorb p = s := by
  cases p <;> first | rfl | cases h

theorem inPsbAfter_of_isTiming {p : Packet} (h : p.isTiming = true) (inPsb : Bool) :
    inPsbAfter inPsb p = inPsb := by
  cases p <;> first | rfl | cases h

namespace Cursor

variable {α β : Type} {c d : Cursor}

theorem bind_of_ok {x : Walk α} {f : α → Walk β} {a : α} (h : x c = .ok a d) :
    (x >>= f) c = f a d := by
  simp only [bind, EStateM.bind, h]

theorem bind_of_error {x : Walk α} {f : α → Walk β} {e : DecodeError} (h : x c = .error e d) :
    (x >>= f) c = .error e d := by
  simp only [bind, EStateM.bind, h]

/-- Two steps in a row: the second one starts where the first one ends, unless that fails. -/
theorem bind_apply (x : Walk α) (f : α → Walk β) (c : Cursor) :
    (x >>= f) c = match x c with
      | .ok a d => f a d
      | .error e d => .error e d := by
  cases h : x c with
  | ok a d => exact bind_of_ok h
  | error e d => exact bind_of_error h

theorem get_bind (f : Cursor → Walk α) (c : Cursor) :
    ((get : Walk Cursor) >>= f) c = f c c := rfl

theorem nextEvent_of_end (h : c.reader.peek = .ok none) : nextEvent c = .ok none c := by
  unfold nextEvent
  split
  next h' => rw [h] at h'; cases h'
  next => rfl
  next h' => rw [h] at h'; cases h'

theorem nextEvent_of_fault {e : PacketError} (h : c.reader.peek = .error e) :
    nextEvent c = .error (.packet e) c := by
  unfold nextEvent
  split
  next h' => rw [h] at h'; cases h'; rfl
  next h' => rw [h] at h'; cases h'
  next h' => rw [h] at h'; cases h'

/-- The packet in front decides: an error, an event, or reading on behind it. -/
theorem nextEvent_of_packet {p : Packet} {n : Nat} (h : c.reader.peek = .ok (some (p, n))) :
    nextEvent c = match c.flow.event c.inPsb c.reader.offset p with
      | .error e => .error e (c.consume p n)
      | .ok (some event) => .ok (some event) (c.consume p n)
      | .ok none => nextEvent (c.consume p n) := by
  conv => lhs; unfold nextEvent
  split
  next h' => rw [h] at h'; cases h'
  next h' => rw [h] at h'; cases h'
  next h' => rw [h] at h'; cases h'; rfl

/-- The state with other outcomes waiting. -/
def withTnt (c : Cursor) (tnt : List Bool) : Cursor := { c with flow := { c.flow with tnt } }

/-- The state with other calls remembered. -/
def withReturns (c : Cursor) (returns : ReturnStack) : Cursor :=
  { c with flow := { c.flow with returns } }

/-- The state with another address of the next instruction. -/
def withIp (c : Cursor) (ip : Option UInt64) : Cursor := { c with flow := { c.flow with ip } }

/-- The state with another instruction to move on from. -/
def withPending (c : Cursor) (pending : Option Pending) : Cursor :=
  { c with flow := { c.flow with pending } }

theorem popTnt_nil (h : c.flow.tnt = []) : popTnt c = .ok none c := by
  unfold popTnt
  rw [get_bind, h]
  rfl

theorem popTnt_cons {taken : Bool} {rest : List Bool} (h : c.flow.tnt = taken :: rest) :
    popTnt c = .ok (some taken) (c.withTnt rest) := by
  unfold popTnt
  rw [get_bind, h]
  rfl

theorem takeTnt_cons {taken : Bool} {rest : List Bool} (h : c.flow.tnt = taken :: rest) :
    takeTnt c = .ok (some taken) (c.withTnt rest) := by
  unfold takeTnt
  rw [get_bind, h]
  exact popTnt_cons h

theorem nextBranch_eq (c : Cursor) :
    nextBranch c = match nextEvent c with
      | .error e d => .error e d
      | .ok none d => .ok none d
      | .ok (some (.status _)) d => nextBranch d
      | .ok (some .tnt) d => .ok (some .tnt) d
      | .ok (some (.ip .tip ip)) d => .ok (some (.target ip)) d
      | .ok (some (.ip .pgd _)) d => .ok (some (.target none)) d
      | .ok (some (.ip _ _)) d => .error (d.desync .branchPacket) d := by
  conv => lhs; unfold nextBranch
  split
  next he => rw [he]
  next he => rw [he]
  next he => rw [he]
  next he => rw [he]
  next he => rw [he]
  next he => rw [he]
  next kind ip d hTip hPgd he =>
    rw [he]
    cases kind with
    | tip => exact (hTip rfl).elim
    | pgd => exact (hPgd rfl).elim
    | _ => rfl

/-- The packet in front is the answer, an error, or it is passed over. -/
theorem nextBranch_of_packet {p : Packet} {n : Nat} (h : c.reader.peek = .ok (some (p, n))) :
    nextBranch c = match c.flow.event c.inPsb c.reader.offset p with
      | .error e => .error e (c.consume p n)
      | .ok none => nextBranch (c.consume p n)
      | .ok (some (.status _)) => nextBranch (c.consume p n)
      | .ok (some .tnt) => .ok (some .tnt) (c.consume p n)
      | .ok (some (.ip .tip ip)) => .ok (some (.target ip)) (c.consume p n)
      | .ok (some (.ip .pgd _)) => .ok (some (.target none)) (c.consume p n)
      | .ok (some (.ip _ _)) => .error ((c.consume p n).desync .branchPacket) (c.consume p n) := by
  rw [nextBranch_eq, nextEvent_of_packet h]
  rcases c.flow.event c.inPsb c.reader.offset p with e | _ | _ | ⟨_ | _ | _ | _, ip⟩ | ip
  case ok.none => exact (nextBranch_eq _).symm
  all_goals rfl

theorem branch_apply (c : Cursor) : branch c = nextBranch c := rfl

theorem takeTnt_nil (h : c.flow.tnt = []) :
    takeTnt c = match nextBranch c with
      | .ok none d => .ok none d
      | .ok (some .tnt) d => popTnt d
      | .ok (some (.target _)) d => .error (d.desync .tntBit) d
      | .error e d => .error e d := by
  unfold takeTnt
  rw [get_bind, h]
  refine (bind_apply branch _ c).trans ?_
  rw [branch_apply]
  rcases nextBranch c with ⟨b, d⟩ | ⟨e, d⟩
  · rcases b with _ | _ | _ <;> rfl
  · rfl

theorem takeTarget_cons {taken : Bool} {rest : List Bool} (h : c.flow.tnt = taken :: rest) :
    takeTarget c = .error (c.desync .tip) c := by
  unfold takeTarget
  rw [get_bind, h]
  rfl

theorem takeTarget_nil (h : c.flow.tnt = []) :
    takeTarget c = match nextBranch c with
      | .ok none d => .ok none d
      | .ok (some .tnt) d => .error (d.desync .tip) d
      | .ok (some (.target ip)) d => .ok (some ip) d
      | .error e d => .error e d := by
  unfold takeTarget
  rw [get_bind, h]
  refine (bind_apply branch _ c).trans ?_
  rw [branch_apply]
  rcases nextBranch c with ⟨b, d⟩ | ⟨e, d⟩
  · rcases b with _ | _ | _ <;> rfl
  · rfl

theorem compressedReturn_nil (h : c.flow.tnt = []) :
    compressedReturn c = .error (c.desync .takenReturn) c :=
  (bind_of_ok (popTnt_nil h)).trans rfl

theorem compressedReturn_false {rest : List Bool} (h : c.flow.tnt = false :: rest) :
    compressedReturn c = .error ((c.withTnt rest).desync .takenReturn) (c.withTnt rest) :=
  (bind_of_ok (popTnt_cons h)).trans rfl

theorem compressedReturn_true {rest : List Bool} (h : c.flow.tnt = true :: rest) :
    compressedReturn c = match c.flow.returns.pop? with
      | some (address, returns) => .ok address ((c.withTnt rest).withReturns returns)
      | none => .error ((c.withTnt rest).desync .matchingCall) (c.withTnt rest) := by
  have hpop : (c.withTnt rest).flow.returns.pop? = c.flow.returns.pop? := rfl
  refine (bind_of_ok (popTnt_cons h)).trans ((get_bind _ _).trans ?_)
  rw [hpop]
  rcases c.flow.returns.pop? with _ | ⟨address, returns⟩ <;> rfl

/-- A return to its call as a return. -/
def returned : Walked UInt64 → Walked (Option (Option UInt64))
  | .ok address d => .ok (some (some address)) d
  | .error e d => .error e d

@[simp] theorem returned_ok (address : UInt64) (d : Cursor) :
    returned (.ok address d) = .ok (some (some address)) d := rfl

theorem takeReturn_cons {taken : Bool} {rest : List Bool} (h : c.flow.tnt = taken :: rest) :
    takeReturn c = returned (compressedReturn c) := by
  unfold takeReturn
  rw [get_bind, h]
  refine (bind_apply compressedReturn _ c).trans ?_
  rcases compressedReturn c with ⟨address, d⟩ | ⟨e, d⟩ <;> rfl

theorem takeReturn_nil (h : c.flow.tnt = []) :
    takeReturn c = match nextBranch c with
      | .ok none d => .ok none d
      | .ok (some .tnt) d => returned (compressedReturn d)
      | .ok (some (.target ip)) d => .ok (some ip) d
      | .error e d => .error e d := by
  unfold takeReturn
  rw [get_bind, h]
  refine (bind_apply branch _ c).trans ?_
  rw [branch_apply]
  rcases nextBranch c with ⟨b, d⟩ | ⟨e, d⟩
  · rcases b with _ | _ | _
    · rfl
    · refine (bind_apply compressedReturn _ d).trans ?_
      rcases hret : compressedReturn d with ⟨address, e⟩ | ⟨e, f⟩ <;> simp only [hret] <;> rfl
    · rfl
  · rfl

/-- The successor of an instruction, case by case. -/
theorem successor_eq (p : Pending) (c : Cursor) :
    successor p c = match p.flow with
      | .next => .ok (some (some p.fallThrough)) c
      | .jump target => .ok (some (some target)) c
      | .call target =>
        .ok (some (some target)) (c.withReturns (c.flow.returns.push p.fallThrough))
      | .conditional target =>
        match takeTnt c with
        | .ok none d => .ok none d
        | .ok (some taken) d => .ok (some (some (if taken then target else p.fallThrough))) d
        | .error e d => .error e d
      | .ret => takeReturn c
      | .indirectCall => takeTarget (c.withReturns (c.flow.returns.push p.fallThrough))
      | .indirectJump | .far => takeTarget c := by
  unfold successor
  cases p.flow with
  | conditional target =>
      refine (bind_apply takeTnt _ c).trans ?_
      rcases takeTnt c with ⟨b, d⟩ | ⟨e, d⟩
      · cases b <;> rfl
      · rfl
  | _ => rfl

theorem resolve_none (h : c.flow.pending = none) : resolve c = .ok true c := by
  unfold resolve
  rw [get_bind, h]
  rfl

theorem resolve_some {p : Pending} (h : c.flow.pending = some p) :
    resolve c = match successor p (c.withPending none) with
      | .ok none d => .ok false d
      | .ok (some ip) d => .ok true (d.withIp ip)
      | .error e d => .error e d := by
  unfold resolve
  rw [get_bind, h]
  refine (bind_apply (successor p) _ (c.withPending none)).trans ?_
  rcases successor p (c.withPending none) with ⟨ip, d⟩ | ⟨e, d⟩
  · cases ip <;> rfl
  · rfl

theorem acquire_eq (c : Cursor) :
    acquire c = match nextEvent c with
      | .error e d => .error e d
      | .ok none d => .ok false d
      | .ok (some event) d =>
        match resumption? event with
        | some ip => .ok true ((d.withIp (some ip)).withTnt [])
        | none =>
          match event with
          | .tnt => acquire (d.withTnt [])
          | _ => acquire d := by
  conv => lhs; unfold acquire
  split
  next he => rw [he]
  next he => rw [he]
  next event d he =>
    conv => rhs; rw [he]
    simp only
    cases hres : resumption? event with
    | some ip => rfl
    | none => cases event <;> rfl

theorem locate_none (h : c.flow.ip = none) :
    locate c = match acquire c with
      | .error e d => .error e d
      | .ok false d => .ok none d
      | .ok true d => locate d := by
  conv => lhs; unfold locate
  simp only [h]
  rcases acquire c with ⟨_ | _, d⟩ | ⟨e, d⟩ <;> rfl

theorem locate_some {ip : UInt64} (h : c.flow.ip = some ip) :
    locate c = match asyncEvent c ip with
      | .error e d => .error e d
      | .ok false d => .ok (some ip) d
      | .ok true d => locate d := by
  conv => lhs; unfold locate
  simp only [h]
  rcases asyncEvent c ip with ⟨_ | _, d⟩ | ⟨e, d⟩ <;> rfl

theorem fetch_of_ok {ip : UInt64} {found : InstructionRecord × Flow}
    (h : c.readInstruction ip = .ok found) : fetch ip c = .ok found c := by
  unfold fetch
  rw [get_bind, h]
  rfl

/-- The state after asking for the image again. -/
def rebuild (c : Cursor) : Cursor :=
  { c with decoder := c.decoder.rebuild.2, rebuilt := true }

/-- An error other than a miss, or a miss after asking for the image, is the end of a fetch. -/
theorem fetch_of_error {ip : UInt64} {e : DecodeError} (h : c.readInstruction ip = .error e)
    (hmiss : c.rebuilt = true ∨ ∀ missing, e ≠ .noMap missing) : fetch ip c = .error e c := by
  unfold fetch
  rw [get_bind, h]
  cases e with
  | noMap missing =>
      have hc : c.rebuilt = true := hmiss.resolve_right fun hne => hne missing rfl
      simp only [hc, if_true]
      rfl
  | _ => rfl

theorem fetch_of_noMap {ip missing : UInt64} (h : c.readInstruction ip = .error (.noMap missing))
    (hc : c.rebuilt = false) :
    fetch ip c = match c.decoder.rebuild.1 with
      | .error e => .error e c.rebuild
      | .ok () =>
        match c.rebuild.readInstruction ip with
        | .ok found => .ok found c.rebuild
        | .error e => .error e c.rebuild := by
  unfold fetch
  rw [get_bind, h]
  simp only [hc, Bool.false_eq_true, if_false]
  show ((match c.decoder.rebuild.1 with | .error _ => _ | .ok () => _ : Walk _)) c.rebuild = _
  rcases c.decoder.rebuild.1 with e | ⟨⟨⟩⟩
  · rfl
  · show ((match c.rebuild.readInstruction ip with | .ok _ => _ | .error _ => _ : Walk _)) c.rebuild = _
    cases c.rebuild.readInstruction ip <;> rfl

/-- The state with one more instruction counted since the last packet. -/
def countStep (c : Cursor) : Cursor := { c with steps := c.steps + 1 }

/-- A whole step, part by part. -/
theorem step_eq (c : Cursor) :
    step c = match resolve c with
      | .error e d => .error e d
      | .ok false d => .ok none d
      | .ok true d =>
        match locate d with
        | .error e f => .error e f
        | .ok none f => .ok none f
        | .ok (some ip) f =>
          if f.steps = maxSteps then .error (.runaway ip f.steps) f
          else
            match fetch ip f.countStep with
            | .error e g => .error e g
            | .ok (record, flow) g =>
              .ok (some record) (g.withPending (some ⟨ip, record.size, flow⟩)) := by
  unfold step
  refine (bind_apply resolve _ c).trans ?_
  rcases resolve c with ⟨b, d⟩ | ⟨e, d⟩
  · cases b with
    | false => rfl
    | true =>
        refine (bind_apply position _ d).trans ?_
        have hpos : position d = locate d := rfl
        rw [hpos]
        rcases hl : locate d with ⟨_ | ip, f⟩ | ⟨e, f⟩ <;> simp only [hl]
        · rfl
        · refine (get_bind _ f).trans ?_
          by_cases hs : f.steps = maxSteps
          · simp only [hs, if_true]
            rfl
          · simp only [hs, if_false]
            refine (bind_apply (fetch ip) _ f.countStep).trans ?_
            rcases fetch ip f.countStep with ⟨⟨record, flow⟩, g⟩ | ⟨e, g⟩ <;> rfl
  · rfl

end Cursor

end BranchWatch
