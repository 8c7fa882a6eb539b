import BranchWatch.Proofs.Walk.Execution
import BranchWatch.Proofs.Walk.Termination

/-!
# What the trace has said so far

The packets read and the instructions given determine what may come next, without any look at the
state of the walk: which addresses packets name (`addresses`), which branch outcomes have come
(`outcomes`), and what of this is still open.  A `Ledger` keeps the open part: the outcomes that no
branch has used and the calls that no return has used.

An instruction uses an outcome as soon as there is one, here as in the processor, whereas the walk
waits until the next instruction is asked for.  So the ledger remembers which instruction waits for
an outcome, and the two agree whenever nothing waits (`Settled`).
-/

namespace BranchWatch

namespace Packet

/-- The address that compressed ones refer to, behind the packet. -/
def lastIp (last : UInt64) : Packet → UInt64
  | .psb => 0
  | .ip _ payload => (payload.apply last).getD last
  | _ => last

/-- The address that the packet names. -/
def address? (last : UInt64) : Packet → Option UInt64
  | .ip _ payload => payload.apply last
  | _ => none

/-- The branch outcomes in the packet, oldest first. -/
def outcomes : Packet → List Bool
  | .tnt taken => taken
  | _ => []

/-- The packet says nothing about the path. -/
def isSilent : Packet → Bool
  | .overflow | .traceStop | .tnt _ | .ip .. => false
  | _ => true

/-- Tracing stops with the packet. -/
def isStop : Packet → Bool
  | .ip .pgd _ | .traceStop => true
  | _ => false

theorem isStop_of_isSilent {p : Packet} (h : p.isSilent = true) : p.isStop = false := by
  cases p <;> first | rfl | cases h

end Packet

/-- The address that compressed ones refer to, behind some packets. -/
def lastIpAfter (last : UInt64) (ps : List (Nat × Packet)) : UInt64 :=
  ps.foldl (fun last x => x.2.lastIp last) last

/-- The addresses that packets name. -/
def addresses (last : UInt64) : List (Nat × Packet) → List UInt64
  | [] => []
  | (_, p) :: ps => (p.address? last).toList ++ addresses (p.lastIp last) ps

/-- The branch outcomes in some packets, oldest first. -/
def outcomes (ps : List (Nat × Packet)) : List Bool :=
  ps.flatMap (·.2.outcomes)

/-- What the packets and instructions so far have left open. -/
structure Ledger where
  lastIp : UInt64 := 0
  /-- Outcomes that no branch has used, oldest first. -/
  bits : List Bool := []
  /-- Where the calls return to that no return has used, the latest first. -/
  calls : List UInt64 := []
  /-- The class of the instruction that waits for an outcome. -/
  waiting : Option InstructionClass := none

namespace Ledger

/-- The instruction that waits takes the oldest outcome, if there is one. -/
def answer (l : Ledger) : Ledger :=
  match l.waiting, l.bits with
  | some .conditionalJump, _ :: bits => { l with bits, waiting := none }
  | some .nearReturn, _ :: bits => { l with bits, calls := l.calls.tail, waiting := none }
  | _, _ => l

/-- An address says where execution is: outcomes that nobody used before belong to code that was
not followed, and a return that waits has been answered. -/
def packet (l : Ledger) : Packet → Ledger
  | .psb => { l with lastIp := 0 }
  | .tnt taken => { l with bits := l.bits ++ taken }.answer
  | .ip kind payload =>
    { l with
      lastIp := (payload.apply l.lastIp).getD l.lastIp
      bits := []
      waiting := if kind = .fup then l.waiting else none }
  | .traceStop => { l with bits := [], waiting := none }
  | _ => l

/-- An instruction is given. -/
def emit (l : Ledger) (r : InstructionRecord) : Ledger :=
  match r.cls with
  | .nearCall => { l with calls := r.fallThrough :: l.calls }
  | .conditionalJump => { l with waiting := some .conditionalJump }.answer
  | .nearReturn => { l with waiting := some .nearReturn }.answer
  | _ => l

/-- After an error nothing is known. -/
def happen (l : Ledger) : Happening → Ledger
  | .read _ p => l.packet p
  | .item (.ok r) => l.emit r
  | .item (.error _) => {}

/-- The ledger behind some packets. -/
def feed (l : Ledger) (ps : List (Nat × Packet)) : Ledger :=
  ps.foldl (fun l x => l.packet x.2) l

/-- The ledger of a whole log. -/
def ofLog (log : List Happening) : Ledger :=
  log.foldl happen {}

end Ledger

section

variable {last : UInt64} {ps qs : List (Nat × Packet)}

theorem lastIpAfter_append (last : UInt64) (ps qs : List (Nat × Packet)) :
    lastIpAfter last (ps ++ qs) = lastIpAfter (lastIpAfter last ps) qs :=
  List.foldl_append

theorem addresses_append (last : UInt64) (ps qs : List (Nat × Packet)) :
    addresses last (ps ++ qs) = addresses last ps ++ addresses (lastIpAfter last ps) qs := by
  induction ps generalizing last with
  | nil => rfl
  | cons x ps ih =>
      show (x.2.address? last).toList ++ addresses (x.2.lastIp last) (ps ++ qs) = _
      rw [ih]
      exact (List.append_assoc _ _ _).symm

theorem mem_addresses_of_mem {a : UInt64} (h : a ∈ addresses last ps) :
    a ∈ addresses last (ps ++ qs) := by
  rw [addresses_append]
  exact List.mem_append_left _ h

theorem outcomes_append (ps qs : List (Nat × Packet)) :
    outcomes (ps ++ qs) = outcomes ps ++ outcomes qs :=
  List.flatMap_append

theorem Ledger.feed_append (l : Ledger) (ps qs : List (Nat × Packet)) :
    l.feed (ps ++ qs) = (l.feed ps).feed qs :=
  List.foldl_append

theorem Ledger.ofLog_append (log rest : List Happening) :
    ofLog (log ++ rest) = rest.foldl happen (ofLog log) :=
  List.foldl_append

theorem Ledger.foldl_happen_ofReads (l : Ledger) (ps : List (Nat × Packet)) :
    (Happening.ofReads ps).foldl happen l = l.feed ps := by
  unfold Happening.ofReads
  rw [List.foldl_map]
  rfl

theorem Ledger.lastIp_answer (l : Ledger) : l.answer.lastIp = l.lastIp := by
  unfold answer
  split <;> rfl

/-- Without an outcome the instruction goes on waiting. -/
theorem Ledger.answer_of_bits {l : Ledger} (h : l.bits = []) : l.answer = l := by
  unfold answer
  split
  next hbits => exact absurd (hbits.symm.trans h) (List.cons_ne_nil _ _)
  next hbits => exact absurd (hbits.symm.trans h) (List.cons_ne_nil _ _)
  next => rfl

theorem Ledger.answer_of_waiting {l : Ledger} (h : l.waiting = none) : l.answer = l := by
  unfold answer
  rw [h]

/-- The address that compressed ones refer to is the same in the ledger, whatever is open. -/
theorem Ledger.lastIp_packet (l : Ledger) (p : Packet) : (l.packet p).lastIp = p.lastIp l.lastIp := by
  cases p with
  | tnt taken => exact lastIp_answer _
  | _ => rfl

theorem Ledger.lastIp_feed (l : Ledger) (ps : List (Nat × Packet)) :
    (l.feed ps).lastIp = lastIpAfter l.lastIp ps := by
  induction ps generalizing l with
  | nil => rfl
  | cons x ps ih =>
      show ((l.packet x.2).feed ps).lastIp = lastIpAfter (x.2.lastIp l.lastIp) ps
      rw [ih, l.lastIp_packet]

theorem Ledger.lastIp_emit (l : Ledger) (r : InstructionRecord) :
    (l.emit r).lastIp = l.lastIp := by
  unfold emit
  cases r.cls with
  | conditionalJump => exact lastIp_answer _
  | nearReturn => exact lastIp_answer _
  | _ => rfl

theorem Ledger.feed_of_silent (l : Ledger) (h : ∀ x ∈ ps, x.2.isSilent = true) :
    l.feed ps = { l with lastIp := lastIpAfter l.lastIp ps } := by
  induction ps generalizing l with
  | nil => rfl
  | cons x ps ih =>
      have hx : l.packet x.2 = { l with lastIp := x.2.lastIp l.lastIp } := by
        have hsilent := h x List.mem_cons_self
        cases hp : x.2 <;> rw [hp] at hsilent <;> first | rfl | cases hsilent
      show (l.packet x.2).feed ps = _
      rw [hx, ih _ fun y hy => h y (List.mem_cons_of_mem _ hy)]
      rfl

theorem outcomes_of_silent (h : ∀ x ∈ ps, x.2.isSilent = true) : outcomes ps = [] := by
  refine List.flatMap_eq_nil_iff.2 fun x hx => ?_
  have hsilent := h x hx
  cases hp : x.2 <;> rw [hp] at hsilent <;> first | rfl | cases hsilent

end

/-! ## Events -/

/-- What a packet means for the path, told without the state of the walk. -/
inductive Means (last : UInt64) : Packet → FlowEvent → Prop
  | tnt (taken : List Bool) : Means last (.tnt taken) .tnt
  | ip (kind : IpKind) (payload : IpPayload) :
      Means last (.ip kind payload) (.ip kind (payload.apply last))
  | status (payload : IpPayload) : Means last (.ip .fup payload) (.status (payload.apply last))
  | stop : Means last .traceStop (.ip .pgd none)

theorem FlowState.event_eq_ok {s : FlowState} {inPsb : Bool} {offset : Nat} {p : Packet}
    {event : Option FlowEvent} (h : s.event inPsb offset p = .ok event) :
    match event with
    | none => p.isSilent = true
    | some e => Means s.lastIp p e := by
  cases p with
  | tnt taken => cases h; exact .tnt taken
  | ip kind payload =>
      by_cases hfup : kind = .fup ∧ inPsb = true
      · obtain ⟨rfl, rfl⟩ := hfup
        cases h
        exact .status payload
      · have hevent : s.event inPsb offset (.ip kind payload) =
            .ok (some (.ip kind (payload.apply s.lastIp))) := if_neg hfup
        rw [hevent] at h
        cases h
        exact .ip kind payload
  | traceStop => cases h; exact .stop
  | overflow => cases h
  | _ => cases h; rfl

/-- Packets up to an event: all but the last one say nothing. -/
inductive Told (last : UInt64) : List (Nat × Packet) → Option FlowEvent → Prop
  | silent {ps : List (Nat × Packet)} (h : ∀ x ∈ ps, x.2.isSilent = true) : Told last ps none
  | event {ps : List (Nat × Packet)} {x : Nat × Packet} {e : FlowEvent}
      (h : ∀ y ∈ ps, y.2.isSilent = true) (he : Means (lastIpAfter last ps) x.2 e) :
      Told last (ps ++ [x]) (some e)

namespace Told

variable {last : UInt64} {ps : List (Nat × Packet)}

theorem single {x : Nat × Packet} {e : FlowEvent} (he : Means last x.2 e) :
    Told last [x] (some e) :=
  @event last [] x e nofun he

theorem cons {x : Nat × Packet} {event : Option FlowEvent} (hx : x.2.isSilent = true)
    (h : Told (x.2.lastIp last) ps event) : Told last (x :: ps) event := by
  have hall {qs : List (Nat × Packet)} (hqs : ∀ y ∈ qs, y.2.isSilent = true) :
      ∀ y ∈ x :: qs, y.2.isSilent = true := by
    intro y hy
    rcases List.mem_cons.1 hy with rfl | hy
    · exact hx
    · exact hqs y hy
  cases h with
  | silent h => exact .silent (hall h)
  | event h he => exact .event (hall h) he

theorem of_none (h : Told last ps none) (l : Ledger) :
    outcomes ps = [] ∧ ∃ newIp, l.feed ps = { l with lastIp := newIp } := by
  cases h with
  | silent h => exact ⟨outcomes_of_silent h, _, l.feed_of_silent h⟩

theorem of_tnt (h : Told last ps (some .tnt)) (l : Ledger) :
    ∃ newIp, l.feed ps = { l with lastIp := newIp, bits := l.bits ++ outcomes ps }.answer := by
  cases h with
  | @event ps x _ h he =>
      obtain ⟨o, p⟩ := x
      cases he
      refine ⟨lastIpAfter l.lastIp ps, ?_⟩
      rw [l.feed_append, l.feed_of_silent h, outcomes_append, outcomes_of_silent h]
      simp [Ledger.feed, Ledger.packet, outcomes, Packet.outcomes]

/-- An address clears the outcomes that are open. -/
theorem of_ip {kind : IpKind} {ip : Option UInt64} (h : Told last ps (some (.ip kind ip)))
    (l : Ledger) : outcomes ps = [] ∧ (∀ a, ip = some a → a ∈ addresses last ps) ∧
      ∃ newIp, l.feed ps = { l with
        lastIp := newIp, bits := [], waiting := if kind = .fup then l.waiting else none } := by
  cases h with
  | @event ps x _ h he =>
      obtain ⟨o, p⟩ := x
      rw [outcomes_append, outcomes_of_silent h, addresses_append, l.feed_append,
        l.feed_of_silent h]
      cases he with
      | ip _ payload =>
          refine ⟨rfl, fun a ha => List.mem_append_right _ ?_, _, rfl⟩
          show a ∈ (payload.apply _).toList ++ _
          rw [ha]
          exact List.mem_cons_self
      | stop => exact ⟨rfl, nofun, _, rfl⟩

theorem of_status {ip : Option UInt64} (h : Told last ps (some (.status ip))) (l : Ledger) :
    outcomes ps = [] ∧ (∀ a, ip = some a → a ∈ addresses last ps) ∧
      ∃ newIp, l.feed ps = { l with lastIp := newIp, bits := [] } := by
  cases h with
  | @event ps x _ h he =>
      obtain ⟨o, p⟩ := x
      rw [outcomes_append, outcomes_of_silent h, addresses_append, l.feed_append,
        l.feed_of_silent h]
      cases he with
      | status payload =>
          refine ⟨rfl, fun a ha => List.mem_append_right _ ?_, _, rfl⟩
          show a ∈ (payload.apply _).toList ++ _
          rw [ha]
          exact List.mem_cons_self

end Told

end BranchWatch
