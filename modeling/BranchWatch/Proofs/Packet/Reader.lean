import BranchWatch.Packet.Reader
import BranchWatch.Proofs.Packet.Extent

/-!
# The reader as case distinctions

Everything that a reader does starts with the packet in front of it.  Here each of its functions is
told by what is in front: a packet, the end of the buffer, or a fault (`items_eq`, `drained_eq`,
`firstFlowPacket_eq`, and the equations of `next`).  A packet in front lies inside the buffer
(`offset_add_le_of_peek`), and a fault is reported where the reader stands
(`offset_of_peek_eq_error`).
-/

namespace BranchWatch

namespace PacketReader

variable {r : PacketReader} {p : Packet} {n : Nat} {e : PacketError}

/-! ## Places -/

@[simp] theorem mkAt_rest (buffer : List UInt8) (offset : Nat) :
    (mkAt buffer offset).rest = buffer.drop offset := rfl

theorem seek_offset (r : PacketReader) : r.seek r.offset = r := by
  obtain ⟨buffer, offset, rest, rfl⟩ := r
  rfl

theorem advance_of_rest {bytes rest : List UInt8} (hrest : r.rest = bytes ++ rest) :
    (r.advance bytes.length).rest = rest := by
  show r.rest.drop bytes.length = rest
  rw [hrest, List.drop_left]

/-! ## What is in front -/

theorem peek_eq (r : PacketReader) : r.peek = match Packet.parse r.rest with
    | .ok found => .ok found
    | .error fault => .error ⟨r.offset, fault⟩ := rfl

theorem peek_of_parse {bytes : List UInt8} (hrest : r.rest = bytes)
    (hparse : Packet.parse bytes = .ok (some (p, n))) : r.peek = .ok (some (p, n)) := by
  rw [peek_eq, hrest, hparse]

theorem peek_of_nil (hrest : r.rest = []) : r.peek = .ok none := by
  rw [peek_eq, hrest]
  rfl

/-- There is nothing in front only where no bytes are left. -/
theorem rest_of_peek_eq_none (h : r.peek = .ok none) : r.rest = [] := by
  rw [peek_eq] at h
  split at h
  next hparse =>
    cases h
    exact Packet.parse_eq_none_iff.1 hparse
  next => cases h

theorem peek_seek_length (r : PacketReader) : (r.seek r.buffer.length).peek = .ok none :=
  peek_of_nil List.drop_length

theorem offset_of_peek_eq_error (h : r.peek = .error e) : e.offset = r.offset := by
  unfold peek at h
  split at h
  next => cases h
  next => cases h; rfl

/-- At the end of the buffer there is nothing that cannot be read. -/
theorem offset_lt_of_peek_eq_error (h : r.peek = .error e) : r.offset < r.buffer.length := by
  refine Nat.lt_of_not_le fun hle => ?_
  have hrest : r.rest = [] := by
    rw [r.rest_eq]
    exact List.drop_eq_nil_of_le hle
  rw [peek_of_nil hrest] at h
  cases h

/-- A packet lies inside the buffer. -/
theorem offset_add_le_of_peek (h : r.peek = .ok (some (p, n))) :
    0 < n ∧ r.offset + n ≤ r.buffer.length := by
  obtain ⟨hpos, hle⟩ := Packet.parse_length (parse_of_peek h)
  rw [r.rest_eq, List.length_drop] at hle
  omega

/-! ## All items -/

theorem items_eq (r : PacketReader) :
    r.items = match r.peek with
      | .ok none => []
      | .ok (some (p, n)) => .ok (r.offset, p) :: (r.advance n).items
      | .error e => [.error e] := by
  conv => lhs; unfold items
  split
  next h => rw [h]
  next h => rw [h]
  next h => rw [h]

theorem items_of_packet (h : r.peek = .ok (some (p, n))) :
    r.items = .ok (r.offset, p) :: (r.advance n).items := by
  rw [items_eq, h]

theorem items_of_end (h : r.peek = .ok none) : r.items = [] := by
  rw [items_eq, h]

theorem items_of_error (h : r.peek = .error e) : r.items = [.error e] := by
  rw [items_eq, h]

theorem drained_eq (r : PacketReader) :
    r.drained = match r.peek with
      | .ok none => r
      | .ok (some (_, n)) => (r.advance n).drained
      | .error _ => r.seek r.buffer.length := by
  conv => lhs; unfold drained
  split
  next h => rw [h]
  next h => rw [h]
  next h => rw [h]

/-! ## One item after the other -/

theorem next_of_packet (h : r.peek = .ok (some (p, n))) :
    r.next = (some (.ok (r.offset, p)), r.advance n) := by
  unfold next
  rw [h]

theorem next_of_end (h : r.peek = .ok none) : r.next = (none, r) := by
  unfold next
  rw [h]

theorem next_of_error (h : r.peek = .error e) :
    r.next = (some (.error e), r.seek r.buffer.length) := by
  unfold next
  rw [h]

theorem eq_of_next_eq_none {s : PacketReader} (h : r.next = (none, s)) : s = r := by
  unfold next at h
  split at h <;> cases h
  rfl

/-- The first answer is the first item, and the others come from the place behind it. -/
theorem items_eq_next (r : PacketReader) :
    r.items = match r.next with
      | (none, _) => []
      | (some i, s) => i :: s.items := by
  rcases hpeek : r.peek with e | _ | ⟨p, n⟩
  · have hend : (r.seek r.buffer.length).items = [] := items_of_end r.peek_seek_length
    rw [items_of_error hpeek, next_of_error hpeek]
    exact congrArg _ hend.symm
  · rw [items_of_end hpeek, next_of_end hpeek]
  · rw [items_of_packet hpeek, next_of_packet hpeek]

theorem drained_eq_next (r : PacketReader) :
    r.drained = match r.next with
      | (none, s) => s
      | (some _, s) => s.drained := by
  rcases hpeek : r.peek with e | _ | ⟨p, n⟩
  · have hend : (r.seek r.buffer.length).drained = r.seek r.buffer.length := by
      rw [drained_eq, peek_seek_length]
    rw [drained_eq, hpeek, next_of_error hpeek]
    exact hend.symm
  · rw [drained_eq, hpeek, next_of_end hpeek]
  · rw [drained_eq, hpeek, next_of_packet hpeek]

/-! ## The first packet that matters for the path -/

theorem firstFlowPacket_eq (r : PacketReader) :
    r.firstFlowPacket = match r.peek with
      | .error e => .error e
      | .ok none => .ok none
      | .ok (some (p, k)) =>
        if p.isTiming then (r.advance k).firstFlowPacket else .ok (some p) := by
  conv => lhs; unfold firstFlowPacket
  split
  next h => rw [h]
  next h => rw [h]
  next h => rw [h]

theorem firstFlowPacket_of_end (h : r.peek = .ok none) : r.firstFlowPacket = .ok none := by
  rw [firstFlowPacket_eq, h]

theorem firstFlowPacket_of_flow (h : r.peek = .ok (some (p, n))) (hflow : p.isTiming = false) :
    r.firstFlowPacket = .ok (some p) := by
  rw [firstFlowPacket_eq, h]
  simp only [hflow, Bool.false_eq_true, if_false]

theorem offset_le_of_firstFlowPacket_eq_error (h : r.firstFlowPacket = .error e) :
    r.offset ≤ e.offset := by
  fun_induction firstFlowPacket r with
  | case1 r e' hp =>
      cases h
      exact Nat.le_of_eq (offset_of_peek_eq_error hp).symm
  | case2 r hp => cases h
  | case3 r p n hp ht ih => exact Nat.le_trans (Nat.le_add_right _ _) (ih h)
  | case4 r p n hp ht => cases h

theorem offset_lt_of_firstFlowPacket_eq_error (h : r.firstFlowPacket = .error e) :
    e.offset < r.buffer.length := by
  fun_induction firstFlowPacket r with
  | case1 r e' hp =>
      cases h
      rw [offset_of_peek_eq_error hp]
      exact offset_lt_of_peek_eq_error hp
  | case2 r hp => cases h
  | case3 r p n hp ht ih => exact ih h
  | case4 r p n hp ht => cases h

end PacketReader

end BranchWatch
