import BranchWatch.Proofs.Walk.Execution
import BranchWatch.Proofs.Walk.Run

/-!
# Following what has been written

The packets that are written for an execution say what the walk asks for, one after the other.
`Holds` says that the messages that are still to come are the outcomes that the walk has not used,
followed by what the remaining packets say.  Under this condition each part of a step of the walk
takes the next message and nothing else, up to the next instruction (`next_of_leads`).
-/

namespace BranchWatch

/-- A packet of outcomes reads as one, and takes all its bytes. -/
theorem IsTnt.parse {taken : List Bool} {bytes : List UInt8} (h : IsTnt taken bytes)
    (hne : taken ≠ []) (rest : List UInt8) :
    Packet.parse (bytes ++ rest) = .ok (some (.tnt taken, bytes.length)) := by
  rcases h with ⟨hlen, rfl⟩ | ⟨hlen, rfl⟩
  · exact Packet.parse_shortTnt hne hlen rest
  · rw [Packet.length_longTnt]
    exact Packet.parse_longTnt hlen rest

/-- The latest call is taken, the others stay. -/
theorem ReturnStack.pop?_of_cons {s : ReturnStack} {address : UInt64} {older : List UInt64}
    (h : s.addresses = address :: older) :
    ∃ returns, s.pop? = some (address, returns) ∧ returns.addresses = older := by
  obtain ⟨addresses, hlength⟩ := s
  cases h
  exact ⟨_, rfl, rfl⟩

namespace Cursor

variable {c d : Cursor} {i : Nat} {ms : List (Nat × Message)} {packets : List (Nat × List UInt8)}

/-- The messages to come are the open outcomes and what the remaining packets say. -/
structure Holds (c : Cursor) (ms : List (Nat × Message)) (packets : List (Nat × List UInt8)) :
    Prop where
  queued : ∃ (owed : List (Nat × Bool)) (unread : List (Nat × Message)),
    ms = owed.map (fun x => (x.1, .outcome x.2)) ++ unread ∧ c.flow.tnt = owed.map (·.2) ∧
      Written c.flow.lastIp unread packets
  rest : c.reader.rest = packets.flatMap (·.2)

/-- Where no outcome is open the next message is in the next packet. -/
theorem Holds.written (h : Holds c ms packets) (hc : c.flow.tnt = []) :
    Written c.flow.lastIp ms packets := by
  obtain ⟨owed, unread, hms, htnt, hwritten⟩ := h.queued
  have howed : owed = [] := List.map_eq_nil_iff.1 (htnt.symm.trans hc)
  rw [hms, howed]
  exact hwritten

/-- An open outcome is the next message. -/
theorem Holds.outcome {taken : Bool} (h : Holds c ((i, .outcome taken) :: ms) packets)
    (hc : c.flow.tnt ≠ []) :
    ∃ rest, c.flow.tnt = taken :: rest ∧ Holds (c.withTnt rest) ms packets := by
  obtain ⟨owed, unread, hms, htnt, hwritten⟩ := h.queued
  cases owed with
  | nil => exact absurd htnt hc
  | cons x owed =>
      obtain ⟨hx, hmore⟩ := List.cons.inj hms
      obtain ⟨_, hb⟩ := Prod.mk.inj hx
      rw [List.map_cons, ← Message.outcome.inj hb] at htnt
      exact ⟨owed.map (·.2), htnt, ⟨owed, unread, hmore, rfl, hwritten⟩, h.rest⟩

/-- An address is never sent while outcomes are open. -/
theorem Holds.tnt_of_target {ip : UInt64} (h : Holds c ((i, .target ip) :: ms) packets) :
    c.flow.tnt = [] := by
  obtain ⟨owed, unread, hms, htnt, _⟩ := h.queued
  cases owed with
  | nil => exact htnt
  | cons x owed => cases hms

theorem Holds.tnt_of_nil (h : Holds c [] packets) : c.flow.tnt = [] := by
  obtain ⟨owed, unread, hms, htnt, _⟩ := h.queued
  cases owed with
  | nil => exact htnt
  | cons x owed => cases hms

/-! ## Reading the next packet -/

/-- The next packet has the outcome that is needed next, and maybe more. -/
theorem nextBranch_outcome {taken : Bool} (h : Holds c ((i, .outcome taken) :: ms) packets)
    (hc : c.flow.tnt = []) :
    ∃ bytes packets' rest, packets = (i, bytes) :: packets' ∧
      nextBranch c = .ok (some .tnt) (c.consume (.tnt (taken :: rest)) bytes.length) ∧
      Holds ((c.consume (.tnt (taken :: rest)) bytes.length).withTnt rest) ms packets' := by
  have hwritten := h.written hc
  have hrest := h.rest
  cases hwritten with
  | @outcomes _ _ _ more ms bytes packets hbytes hw =>
      rw [List.flatMap_cons] at hrest
      have hpeek := PacketReader.peek_of_parse hrest (hbytes.parse (List.cons_ne_nil _ _) _)
      -- The other outcomes of the packet are open from now on.
      refine ⟨bytes, packets, more.map (·.2), rfl, ?_, ⟨more, ms, rfl, rfl, hw⟩, ?_⟩
      · rw [nextBranch_eq, nextEvent_of_packet hpeek]
        rfl
      · exact PacketReader.advance_of_rest hrest

/-- The next packet has the address that is needed next. -/
theorem nextBranch_target {ip : UInt64} (h : Holds c ((i, .target ip) :: ms) packets) :
    ∃ bytes packets' payload, packets = (i, bytes) :: packets' ∧
      nextBranch c = .ok (some (.target (some ip))) (c.consume (.ip .tip payload) bytes.length) ∧
      Holds (c.consume (.ip .tip payload) bytes.length) ms packets' := by
  have hc := h.tnt_of_target
  have hwritten := h.written hc
  have hrest := h.rest
  cases hwritten with
  | @target _ _ _ form ms packets hform hw =>
      rw [List.flatMap_cons] at hrest
      have hparse := Packet.parse_ipBytes .tip form ip (packets.flatMap (·.2))
      rw [← Packet.length_ipBytes .tip form ip] at hparse
      have hpeek := PacketReader.peek_of_parse hrest hparse
      have hip := IpForm.apply_payload hform
      refine ⟨_, packets, form.payload (form.sent ip), rfl, ?_, ⟨[], ms, rfl, hc, ?_⟩, ?_⟩
      · rw [nextBranch_eq, nextEvent_of_packet hpeek]
        simp [FlowState.event, hip]
      · show Written (((form.payload (form.sent ip)).apply c.flow.lastIp).getD _) ms packets
        rw [hip]
        exact hw
      · exact PacketReader.advance_of_rest hrest

theorem nextBranch_end (h : Holds c [] packets) : packets = [] ∧ nextBranch c = .ok none c := by
  have hwritten := h.written h.tnt_of_nil
  have hrest := h.rest
  cases hwritten with
  | nil =>
      have hpeek := PacketReader.peek_of_nil hrest
      rw [nextBranch_eq, nextEvent_of_end hpeek]
      exact ⟨rfl, rfl⟩

/-- No asynchronous event is written, so the address is where the path stands. -/
theorem locate_of_holds {ip : UInt64} (h : Holds c ms packets) (hip : c.flow.ip = some ip) :
    locate c = .ok (some ip) c := by
  have hasync : asyncEvent c ip = .ok false c := by
    unfold asyncEvent
    -- While outcomes are open the walk does not look ahead.
    cases hc : c.flow.tnt with
    | cons b rest => rfl
    | nil =>
        have hahead : c.asyncAhead ip = .ok false := by
          have hwritten := h.written hc
          have hrest := h.rest
          unfold asyncAhead
          cases hwritten with
          | nil =>
              rw [PacketReader.firstFlowPacket_of_end (PacketReader.peek_of_nil hrest)]
          | outcomes hbytes =>
              rw [List.flatMap_cons] at hrest
              have hpeek := PacketReader.peek_of_parse hrest (hbytes.parse (List.cons_ne_nil _ _) _)
              rw [PacketReader.firstFlowPacket_of_flow hpeek rfl]
          | target =>
              rw [List.flatMap_cons] at hrest
              have hpeek := PacketReader.peek_of_parse hrest (Packet.parse_ipBytes ..)
              rw [PacketReader.firstFlowPacket_of_flow hpeek rfl]
        simp only [List.isEmpty_nil, if_true, hahead]
  rw [locate_some hip, hasync]

/-! ## Taking the next message -/

/-- What taking a message about the instruction number `i` leaves alone.  The count of instructions
starts anew if a packet is read for it. -/
structure Took (i : Nat) (c : Cursor) (packets : List (Nat × List UInt8)) (d : Cursor)
    (packets' : List (Nat × List UInt8)) : Prop where
  decoder : d.decoder = c.decoder
  done : d.done = c.done
  mode : d.flow.mode = c.flow.mode
  pace : packets' = packets ∧ d.steps = c.steps ∨
    ∃ bytes, packets = (i, bytes) :: packets' ∧ d.steps = 0

/-- The outcome that is needed next stands in front, at once or when a packet has been read. -/
theorem Holds.front {taken : Bool} (h : Holds c ((i, .outcome taken) :: ms) packets) :
    ∃ d rest packets', (c.flow.tnt ≠ [] ∧ d = c ∨
        c.flow.tnt = [] ∧ nextBranch c = .ok (some .tnt) d) ∧
      d.flow.tnt = taken :: rest ∧ Holds (d.withTnt rest) ms packets' ∧
      d.flow.returns = c.flow.returns ∧ Took i c packets (d.withTnt rest) packets' := by
  by_cases hc : c.flow.tnt = []
  · obtain ⟨bytes, packets', rest, hpackets, hbranch, hholds⟩ := nextBranch_outcome h hc
    refine ⟨_, rest, packets', .inr ⟨hc, hbranch⟩, ?_, hholds, rfl, rfl, rfl, rfl, ?_⟩
    · show c.flow.tnt ++ taken :: rest = taken :: rest
      rw [hc, List.nil_append]
    · exact .inr ⟨bytes, hpackets, rfl⟩
  · obtain ⟨rest, htnt, hholds⟩ := h.outcome hc
    exact ⟨c, rest, packets, .inl ⟨hc, rfl⟩, htnt, hholds, rfl, rfl, rfl, rfl, .inl ⟨rfl, rfl⟩⟩

theorem takeTnt_outcome {taken : Bool} (h : Holds c ((i, .outcome taken) :: ms) packets) :
    ∃ d packets', takeTnt c = .ok (some taken) d ∧ Holds d ms packets' ∧
      d.flow.returns = c.flow.returns ∧ Took i c packets d packets' := by
  obtain ⟨d, rest, packets', hfront, htnt, hholds, hreturns, htook⟩ := h.front
  refine ⟨d.withTnt rest, packets', ?_, hholds, hreturns, htook⟩
  rcases hfront with ⟨_, rfl⟩ | ⟨hc, hbranch⟩
  · exact takeTnt_cons htnt
  · rw [takeTnt_nil hc, hbranch]
    exact popTnt_cons htnt

/-- A taken outcome brings a return back to the latest call that is remembered. -/
theorem takeReturn_outcome {address : UInt64} {older : List UInt64}
    (h : Holds c ((i, .outcome true) :: ms) packets)
    (hcalls : c.flow.returns.addresses = address :: older) :
    ∃ d packets', takeReturn c = .ok (some (some address)) d ∧ Holds d ms packets' ∧
      d.flow.returns.addresses = older ∧ Took i c packets d packets' := by
  obtain ⟨d, rest, packets', hfront, htnt, hholds, hreturns, htook⟩ := h.front
  obtain ⟨returns, hpop, holder⟩ := ReturnStack.pop?_of_cons (hreturns ▸ hcalls)
  have hreturn : compressedReturn d = .ok address ((d.withTnt rest).withReturns returns) := by
    rw [compressedReturn_true htnt, hpop]
  refine ⟨(d.withTnt rest).withReturns returns, packets', ?_, ⟨hholds.queued, hholds.rest⟩,
    holder, htook.decoder, htook.done, htook.mode, htook.pace⟩
  rcases hfront with ⟨_, rfl⟩ | ⟨hc, hbranch⟩
  · rw [takeReturn_cons htnt, hreturn, returned_ok]
  · rw [takeReturn_nil hc, hbranch]
    simp only [hreturn, returned_ok]

theorem takeReturn_target {address : UInt64} (h : Holds c ((i, .target address) :: ms) packets) :
    ∃ d packets', takeReturn c = .ok (some (some address)) d ∧ Holds d ms packets' ∧
      d.flow.returns = c.flow.returns ∧ Took i c packets d packets' := by
  obtain ⟨bytes, packets', payload, hpackets, hbranch, hholds⟩ := nextBranch_target h
  refine ⟨_, packets', ?_, hholds, rfl, rfl, rfl, rfl, .inr ⟨bytes, hpackets, rfl⟩⟩
  rw [takeReturn_nil h.tnt_of_target, hbranch]

theorem takeTarget_target {address : UInt64} (h : Holds c ((i, .target address) :: ms) packets) :
    ∃ d packets', takeTarget c = .ok (some (some address)) d ∧ Holds d ms packets' ∧
      d.flow.returns = c.flow.returns ∧ Took i c packets d packets' := by
  obtain ⟨bytes, packets', payload, hpackets, hbranch, hholds⟩ := nextBranch_target h
  refine ⟨_, packets', ?_, hholds, rfl, rfl, rfl, rfl, .inr ⟨bytes, hpackets, rfl⟩⟩
  rw [takeTarget_nil h.tnt_of_target, hbranch]

/-! ## Moving on from an instruction -/

variable {image : Image} {stack stack' : List UInt64} {r r' : InstructionRecord}
  {flow flow' : Flow} {dest : UInt64} {message : Option Message}

theorem Holds.withReturns (h : Holds c ms packets) (returns : ReturnStack) :
    Holds (c.withReturns returns) ms packets :=
  ⟨h.queued, h.rest⟩

theorem addresses_push (returns : ReturnStack) (address : UInt64) :
    (returns.push address).addresses = remember returns.addresses address := rfl

/-- The walk goes where the processor went, and remembers the calls that the processor does. -/
theorem successor_of_leads (hleads : Leads stack r flow dest message stack')
    (hcalls : c.flow.returns.addresses = stack)
    (h : Holds c (message.toList.map (i, ·) ++ ms) packets) :
    ∃ d packets', successor ⟨r.ip, r.size, flow⟩ c = .ok (some (some dest)) d ∧
      Holds d ms packets' ∧ d.flow.returns.addresses = stack' ∧ Took i c packets d packets' := by
  rw [successor_eq]
  cases hleads with
  | next => exact ⟨c, packets, rfl, h, hcalls, rfl, rfl, rfl, .inl ⟨rfl, rfl⟩⟩
  | jump => exact ⟨c, packets, rfl, h, hcalls, rfl, rfl, rfl, .inl ⟨rfl, rfl⟩⟩
  | call =>
      refine ⟨_, packets, rfl, h.withReturns _, ?_, rfl, rfl, rfl, .inl ⟨rfl, rfl⟩⟩
      rw [← hcalls]
      exact addresses_push _ _
  | taken =>
      obtain ⟨d, packets', htake, hholds, hreturns, htook⟩ := takeTnt_outcome h
      refine ⟨d, packets', ?_, hholds, hreturns ▸ hcalls, htook⟩
      simp only [htake, if_true]
  | notTaken =>
      obtain ⟨d, packets', htake, hholds, hreturns, htook⟩ := takeTnt_outcome h
      refine ⟨d, packets', ?_, hholds, hreturns ▸ hcalls, htook⟩
      simp only [htake, Bool.false_eq_true, if_false]
      rfl
  | compressed hstack => exact takeReturn_outcome h (hcalls.trans hstack)
  | ret =>
      obtain ⟨d, packets', htake, hholds, hreturns, htook⟩ := takeReturn_target h
      exact ⟨d, packets', htake, hholds, hreturns ▸ hcalls, htook⟩
  | indirectJump =>
      obtain ⟨d, packets', htake, hholds, hreturns, htook⟩ := takeTarget_target h
      exact ⟨d, packets', htake, hholds, hreturns ▸ hcalls, htook⟩
  | indirectCall =>
      obtain ⟨d, packets', htake, hholds, hreturns, htook⟩ :=
        takeTarget_target (h.withReturns (c.flow.returns.push r.fallThrough))
      refine ⟨d, packets', htake, hholds, ?_, htook.decoder, htook.done, htook.mode, htook.pace⟩
      rw [hreturns, ← hcalls]
      exact addresses_push _ _
  | far =>
      obtain ⟨d, packets', htake, hholds, hreturns, htook⟩ := takeTarget_target h
      exact ⟨d, packets', htake, hholds, hreturns ▸ hcalls, htook⟩

theorem takeTarget_end (h : Holds c [] packets) : takeTarget c = .ok none c := by
  rw [takeTarget_nil h.tnt_of_nil, (nextBranch_end h).2]

/-- Nothing is left to say where an open instruction leads. -/
theorem successor_end (hopen : flow.isOpen = true) (h : Holds c [] packets) :
    ∃ d, successor ⟨r.ip, r.size, flow⟩ c = .ok none d := by
  have htnt := h.tnt_of_nil
  have hbranch := (nextBranch_end h).2
  rw [successor_eq]
  cases flow with
  | next => cases hopen
  | jump => cases hopen
  | call => cases hopen
  | conditional =>
      have htake : takeTnt c = .ok none c := by rw [takeTnt_nil htnt, hbranch]
      exact ⟨c, by simp only [htake]⟩
  | ret => exact ⟨c, by simp only [takeReturn_nil htnt, hbranch]⟩
  | indirectCall => exact ⟨_, takeTarget_end (h.withReturns _)⟩
  | indirectJump => exact ⟨c, takeTarget_end h⟩
  | far => exact ⟨c, takeTarget_end h⟩

end Cursor

end BranchWatch
