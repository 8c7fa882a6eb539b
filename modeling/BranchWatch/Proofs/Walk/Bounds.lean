import BranchWatch.Proofs.Packet.Demand
import BranchWatch.Proofs.Walk.Edges
import BranchWatch.Proofs.Walk.Fetching
import BranchWatch.Proofs.Walk.Shift

/-!
# Sums of addresses and offsets

The walk adds to addresses and to offsets, and both have 64 bits.  An address can be anything that a
packet or a branch names, up to the last one there is, so adding to it is safe only where code has
been found: the sum stays within the section, and every section ends at an address
(`Image.toNat_add_of_read`).  How long an instruction is and where it leads is for a disassembler to
say, and nothing is assumed of what it says: of a length that is too large only the bytes that there
are count.

Offsets stay within the window, and so do those that errors name (`Cursor.Bounded`,
`Cursor.Inside`).  This is shown by setting the walk beside itself (`Cursor.Bounded.simulation`), so
that the parts of a step need not be gone through again.

`PacketReader.Exact`, `Cursor.ExactLookUp` and `Cursor.Exact` list the sums and the shifts, and
`Cursor.never_overflows` says that they are exact at every place in the window and all along a walk.
-/

namespace BranchWatch

/-- Adding to an address is exact if the sum is an address. -/
theorem toNat_add_toUInt64 {ip : UInt64} {n : Nat} (h : ip.toNat + n < UInt64.size) :
    (ip + n.toUInt64).toNat = ip.toNat + n := by
  have hn : n.toUInt64.toNat = n := Nat.mod_eq_of_lt (Nat.lt_of_le_of_lt (Nat.le_add_left _ _) h)
  rw [UInt64.toNat_add, hn]
  exact Nat.mod_eq_of_lt h

/-! ## Images -/

/-- What is read at an address lies in one section, so each part of it ends at an address. -/
theorem Image.toNat_add_of_read {image : Image} {ip : UInt64} {count n : Nat} {bytes : List UInt8}
    (hread : image.read ip count = some bytes) (hn : n ≤ bytes.length) :
    (ip + n.toUInt64).toNat = ip.toNat + n := by
  obtain ⟨s, hs, rfl⟩ := Option.map_eq_some_iff.1 hread
  obtain ⟨-, hcovers⟩ := Image.find?_eq_some_iff.1 hs
  have hstop := (Section.covers_iff.1 hcovers).2
  have hend := s.stop_lt
  rw [Section.length_read hcovers] at hn
  exact toNat_add_toUInt64 (by omega)

namespace Cursor

variable {c d f : Cursor} {window : List UInt8} {ip : UInt64}

/-! ## Offsets -/

/-- The walk is inside its window. -/
structure Bounded (window : List UInt8) (c : Cursor) : Prop where
  buffer : c.reader.buffer = window
  offset_le : c.reader.offset ≤ window.length
  lastOffset_le : c.lastOffset ≤ window.length

/-- The packet that the error names, if it does, begins inside the window. -/
def Inside (window : List UInt8) (e : DecodeError) : Prop :=
  ∀ p, e = .packet p → p.offset ≤ window.length

/-- The walk beside itself. -/
def Alone (window : List UInt8) (c d : Cursor) : Prop := c = d ∧ Bounded window c

/-- The error beside itself. -/
def AloneError (window : List UInt8) (e e' : DecodeError) : Prop := e = e' ∧ Inside window e

theorem inside_of_unfetched {e : DecodeError} (h : Unfetched e) : Inside window e := by
  rintro p rfl
  cases h

namespace Bounded

theorem beside (h : Bounded window c) : Alone window c c := ⟨rfl, h⟩

theorem consume {p : Packet} {n : Nat} (h : Bounded window c)
    (hp : c.reader.peek = .ok (some (p, n))) : Bounded window (c.consume p n) := by
  have hle := (PacketReader.offset_add_le_of_peek hp).2
  rw [h.buffer] at hle
  exact ⟨h.buffer, hle, h.offset_le⟩

theorem nextEvent (h : Bounded window c) :
    Agree (Alone window) (AloneError window) c.nextEvent c.nextEvent := by
  -- Each packet that is passed over leaves fewer bytes.
  induction hn : c.reader.rest.length using Nat.strongRecOn generalizing c with
  | ind n ih =>
      rcases hpeek : c.reader.peek with e | _ | ⟨p, k⟩
      · rw [nextEvent_of_fault hpeek]
        refine .error ⟨rfl, ?_⟩ h.beside
        rintro p hp
        cases hp
        rw [PacketReader.offset_of_peek_eq_error hpeek]
        exact h.offset_le
      · rw [nextEvent_of_end hpeek]
        exact .ok none h.beside
      · have hp := h.consume hpeek
        rw [nextEvent_of_packet hpeek]
        rcases hevent : c.flow.event c.inPsb c.reader.offset p with e | _ | event
        · obtain ⟨-, rfl⟩ := FlowState.event_eq_error hevent
          exact .error ⟨rfl, nofun⟩ hp.beside
        · exact ih _ (hn ▸ PacketReader.advance_rest_lt hpeek) hp rfl
        · exact .ok _ hp.beside

/-- What a walk inside its window does, it does inside its window. -/
theorem simulation (window : List UInt8) :
    Simulation (fun _ _ => True) (Alone window) (AloneError window) where
  toKindred := .ofFlow (fun h => congrArg Cursor.flow h.1)
    (fun flow h => ⟨congrArg (fun c : Cursor => { c with flow }) h.1,
      h.2.buffer, h.2.offset_le, h.2.lastOffset_le⟩)
    (fun expected h => ⟨congrArg (·.desync expected) h.1, nofun⟩)
  within _ _ := trivial
  nextEvent h _ := by
    obtain ⟨rfl, h⟩ := h
    exact h.nextEvent
  asyncAhead {c d} ip h _ _ := by
    obtain ⟨rfl, h⟩ := h
    cases hahead : c.asyncAhead ip with
    | ok ahead => exact .inl ⟨ahead, rfl, rfl⟩
    | error e =>
        refine .inr ⟨e, e, rfl, rfl, rfl, ?_⟩
        rintro p hp
        cases hp
        unfold Cursor.asyncAhead at hahead
        split at hahead
        next hfirst =>
          cases hahead
          have hlt := PacketReader.offset_lt_of_firstFlowPacket_eq_error hfirst
          rw [h.buffer] at hlt
          exact Nat.le_of_lt hlt
        next => cases hahead
        next => cases hahead

theorem rebuild (h : Bounded window c) : Bounded window c.rebuild :=
  ⟨h.buffer, h.offset_le, h.lastOffset_le⟩

theorem step (h : Bounded window c) :
    match step c with
    | .ok _ d => Bounded window d
    | .error e d => Bounded window d ∧ Inside window e := by
  have hagree := (simulation window).step
    (fun h => congrArg Cursor.steps h.1)
    (fun h => ⟨congrArg Cursor.countStep h.1, h.2.buffer, h.2.offset_le, h.2.lastOffset_le⟩)
    (fun _ _ => ⟨rfl, nofun⟩)
    (fun {c d} ip h => by
      obtain ⟨rfl, h⟩ := h
      exact .fetch ip rfl rfl rfl (fun e he => ⟨rfl, inside_of_unfetched he⟩) h.beside
        h.rebuild.beside)
    h.beside
  generalize hr : Cursor.step c = r at hagree ⊢
  generalize hs : Cursor.step c = s at hagree
  cases hagree with
  | ok a h => exact h.2
  | error he h => exact ⟨h.2, he.2⟩

/-- The search behind an error begins inside the window, or right behind it. -/
theorem failing_le {e : DecodeError} (h : Bounded window c) (he : Inside window e) :
    c.failing e ≤ window.length := by
  cases e with
  | packet p => exact Nat.max_le.2 ⟨h.lastOffset_le, he p rfl⟩
  | _ => exact h.lastOffset_le

theorem recover {e : DecodeError} (h : Bounded window c) (he : Inside window e) :
    Bounded window (c.recover e) := by
  rcases overflow_or_ne e with ⟨offset, rfl⟩ | hother
  · exact ⟨h.buffer, h.offset_le, h.lastOffset_le⟩
  · have hfailing := h.failing_le he
    rw [recover_eq hother]
    split
    next place hplace =>
      rw [h.buffer] at hplace
      -- The walk goes on in front of a pattern, which lies inside the window.
      have hle := (psbAt_of_findPsb hplace).add_le
      exact ⟨h.buffer, Nat.le_trans (Nat.le_add_right _ _) hle, hfailing⟩
    next => exact ⟨h.buffer, h.offset_le, hfailing⟩

theorem next (h : Bounded window c) : Bounded window c.next.2 := by
  have hstep := h.step
  unfold Cursor.next
  split
  next => exact h
  next =>
    rcases hs : Cursor.step c with ⟨_ | record, d⟩ | ⟨e, d⟩ <;> simp only [hs] at hstep ⊢
    · exact ⟨hstep.buffer, hstep.offset_le, hstep.lastOffset_le⟩
    · exact hstep
    · exact hstep.1.recover hstep.2

theorem after (h : Bounded window c) (k : Nat) : Bounded window (c.after k) := by
  induction k with
  | zero => exact h
  | succ k ih => exact ih.next

end Bounded

theorem bounded_start (d : Decoder) (window : List UInt8) (rebuilt : Bool) :
    Bounded window (start d window rebuilt) := by
  have hplace : (findPsb 0 window).getD 0 ≤ window.length := by
    cases hfind : findPsb 0 window with
    | none => exact Nat.zero_le _
    | some place =>
        have hpsb : PsbAt window place := @psbAt_of_findPsb window 0 place hfind
        exact Nat.le_trans (Nat.le_add_right _ _) hpsb.add_le
  exact ⟨rfl, hplace, hplace⟩

/-! ## Addresses -/

/-- Looking up code adds to addresses, and no sum goes beyond 64 bits. -/
structure ExactLookUp (c : Cursor) : Prop where
  /-- At any address, and for any number of the bytes found there.  All of them are counted if the
  instruction is cut, and some of them if it is complete. -/
  found (image : Image) (ip : UInt64) (bytes : List UInt8) (n : Nat) :
    c.decoder.image = some image → image.read ip maxInstructionLength = some bytes →
    n ≤ bytes.length → (ip + n.toUInt64).toNat = ip.toNat + n
  /-- The address that is reported as missing is the one looked up, or the one behind the bytes of a
  cut instruction. -/
  missing (ip missing : UInt64) : c.readInstruction ip = .error (.noMap missing) →
    missing = ip ∨ ∃ image bytes, c.decoder.image = some image ∧
      image.read ip maxInstructionLength = some bytes ∧ missing.toNat = ip.toNat + bytes.length

theorem exactLookUp (c : Cursor) : ExactLookUp c := by
  refine ⟨fun image ip bytes n _ => Image.toNat_add_of_read, fun ip missing hmiss => ?_⟩
  unfold readInstruction at hmiss
  split at hmiss
  next =>
    cases hmiss
    exact .inl rfl
  next bytes hbytes =>
    obtain ⟨image, himage, hread⟩ := Option.bind_eq_some_iff.1 hbytes
    rcases Disassembler.decode_eq_error hmiss with ⟨-, hmissing⟩ | ⟨-, hinvalid⟩
    · cases hmissing
      exact .inr ⟨image, bytes, himage, hread, Image.toNat_add_of_read hread (Nat.le_refl _)⟩
    · cases hinvalid

/-- The address behind the last instruction, if its successor is still open. -/
theorem fallThrough_after {d : Decoder} {rebuilt : Bool} {k : Nat} {p : Pending}
    (hdone : ((start d window rebuilt).after k).done = false)
    (hp : ((start d window rebuilt).after k).flow.pending = some p) :
    p.fallThrough.toNat = p.ip.toNat + p.size := by
  rcases accounts_after (fresh_start d window rebuilt) k with hended | haccounts
  · rw [hended] at hdone
    cases hdone
  · cases haccounts with
    | fresh hf _ =>
        rw [hf.pending] at hp
        cases hp
    | walking _ hw =>
        rw [hw.pending] at hp
        cases hp
        -- The image that the instruction came from is the one that the walk still has.
        obtain ⟨-, -, image, -, hread⟩ := readInstruction_found hw.found
        exact Image.toNat_add_of_read hread (Nat.le_refl _)

end Cursor

/-! ## All together -/

/-- Reading at a place adds to its offset and shifts words, and neither goes beyond 64 bits. -/
structure PacketReader.Exact (r : PacketReader) : Prop where
  /-- The end of what reading looks for. -/
  demand : r.rest ≠ [] → r.offset + Packet.demand r.rest < UInt64.size
  /-- It is what reading checks. -/
  truncated : r.rest ≠ [] → (r.peek = .error ⟨r.offset, .truncated⟩ ↔
    r.buffer.length < r.offset + Packet.demand r.rest)
  /-- The end of a packet is no further. -/
  length (p : Packet) (n : Nat) : r.peek = .ok (some (p, n)) →
    n = Packet.demand r.rest ∧ r.offset + n ≤ r.buffer.length
  /-- Branch outcomes come out of a word that is not zero, by shifts of less than 64 places.  The word
  is the first byte without its lowest bit, or the six bytes behind the opcode. -/
  shifts (taken : List Bool) (n : Nat) : r.peek = .ok (some (.tnt taken, n)) →
    ∃ payload : UInt64, payload ≠ 0 ∧ Packet.wordOutcomes? payload = some taken ∧
      taken.length < 64 ∧ (r.rest.take n = [(2 * payload.toNat).toUInt8] ∨
        r.rest.take n = 0x02 :: 0xa3 :: LittleEndian.bytes 6 payload.toNat)

theorem PacketReader.exact_of_length {r : PacketReader} (h : r.buffer.length < 2 ^ 63) :
    r.Exact := by
  have hrest : r.rest.length = r.buffer.length - r.offset := by rw [r.rest_eq, List.length_drop]
  have hpos (hne : r.rest ≠ []) : r.offset < r.buffer.length := by
    have := List.length_pos_iff.2 hne
    omega
  refine ⟨fun hne => ?_, fun hne => ?_, fun p n hp => ?_, fun taken n hp => ?_⟩
  · have hdemand := Packet.demand_le r.rest
    have hin := hpos hne
    show _ < 2 ^ 64
    omega
  · have hin := hpos hne
    have hpeek : r.peek = .error ⟨r.offset, .truncated⟩ ↔
        Packet.parse r.rest = .error .truncated := by
      unfold peek
      cases Packet.parse r.rest <;> simp
    rw [hpeek, Packet.parse_truncated_iff]
    omega
  · exact ⟨Packet.length_eq_demand (parse_of_peek hp), (offset_add_le_of_peek hp).2⟩
  · exact Packet.outcomes_of_parse (parse_of_peek hp)

namespace Cursor

/-- Going on from a state adds to addresses and offsets, and no sum goes beyond 64 bits. -/
structure Exact (c : Cursor) : Prop where
  /-- The address behind the last instruction, from which the next step moves on.  There is no next
  step if the window has ended. -/
  fallThrough (p : Pending) : c.done = false → c.flow.pending = some p →
    p.fallThrough.toNat = p.ip.toNat + p.size
  /-- The look-up of the next instruction, with the image at hand and with the one that the source
  gives. -/
  lookUp (ip : UInt64) (f : Cursor) :
    c.fetching? = some (ip, f) → ExactLookUp f ∧ ExactLookUp f.rebuild
  /-- The offset from which the next synchronisation point would be looked for. -/
  lastOffset : c.lastOffset + 1 < UInt64.size
  /-- The same behind an error. -/
  failing (e : DecodeError) (d : Cursor) : step c = .error e d → d.failing e + 1 < UInt64.size

/-- **No address, offset or shift overflows.**  Whatever the window is, whatever a packet in it
names, whatever images the source gives and whatever the disassembler says about the bytes in them,
no sum that a walk through the window forms goes beyond 64 bits (`Exact`).  Reading packets is as
safe at every place in the window, so also where the walk only looks ahead.

The hypothesis on the window says that it fits into memory: there a list has fewer than `2 ^ 63`
bytes. -/
theorem never_overflows (d : Decoder) {window : List UInt8} (hwindow : window.length < 2 ^ 63)
    (rebuilt : Bool) :
    (∀ k, ((start d window rebuilt).after k).Exact ∧
      Bounded window ((start d window rebuilt).after k)) ∧
    ∀ r : PacketReader, r.buffer = window → r.Exact := by
  have hsize {n : Nat} (h : n ≤ window.length) : n + 1 < UInt64.size :=
    Nat.lt_of_le_of_lt (Nat.succ_le_succ h) (Nat.lt_trans (Nat.succ_lt_succ hwindow) (by decide))
  refine ⟨fun k => ?_, ?_⟩
  · have hbounded := (bounded_start d window rebuilt).after k
    refine ⟨⟨fun p => fallThrough_after, fun ip f _ => ⟨exactLookUp f, exactLookUp f.rebuild⟩,
      hsize hbounded.lastOffset_le, fun e g hstep => ?_⟩, hbounded⟩
    have hbehind := hbounded.step
    rw [hstep] at hbehind
    exact hsize (hbehind.1.failing_le hbehind.2)
  · rintro r rfl
    exact PacketReader.exact_of_length hwindow

/-- The only section ends as far up as it may, and the walk goes on from its last instruction to the
last address there is. -/
theorem never_overflows_at_top :
    let nop : Section := ⟨0xfffffffffffffffe, #[0x90], by decide, by decide⟩
    let image : Image := ⟨[nop], List.pairwise_singleton _ _⟩
    let d : Decoder := { source := fun _ => .ok image, image := some image }
    let window := Packet.psbPattern ++
      [0x02, 0x23, 0xd1, 0xfe, 0xff, 0xff, 0xff, 0xff, 0xff, 0xff, 0xff]
    let c := (start d window true).after 1
    window.length < 2 ^ 63 ∧ c.Exact ∧
      ∃ p, c.flow.pending = some p ∧ p.fallThrough.toNat = 2 ^ 64 - 1 := by
  intro nop image d window c
  have hwindow : window.length < 2 ^ 63 := by decide
  have hexact : c.Exact := ((never_overflows d hwindow true).1 1).1
  have hdone : c.done = false := by decide +kernel
  have hpending : c.flow.pending.map (fun p => (p.ip, p.size)) = some (0xfffffffffffffffe, 1) := by
    decide +kernel
  obtain ⟨p, hp, heq⟩ := Option.map_eq_some_iff.1 hpending
  obtain ⟨hip, hlength⟩ := Prod.mk.inj heq
  refine ⟨hwindow, hexact, p, hp, ?_⟩
  rw [hexact.fallThrough p hdone hp, hip, hlength]
  rfl

end Cursor

end BranchWatch
