import BranchWatch.Packet.Parse

/-!
# Reading packets one after the other

A `PacketReader` is a place in a buffer.  It keeps the bytes from that place
on beside the offset, so that reading the next packet does not search for its
place again; the field `rest_eq` says that the two agree.

Peeking never moves the reader.  Iterating (`next`, `items`) reports a fault
once and then stands at the end of the buffer: whoever wants to go on after a
fault moves the reader with `seek`.
-/

namespace BranchWatch

/-- A place in a buffer of packets. -/
structure PacketReader where
  buffer : List UInt8
  offset : Nat
  /-- The bytes from the place on. -/
  rest : List UInt8
  rest_eq : rest = buffer.drop offset

namespace PacketReader

/-- The place at an offset, which may lie beyond the end. -/
def mkAt (buffer : List UInt8) (offset : Nat) : PacketReader :=
  ⟨buffer, offset, buffer.drop offset, rfl⟩

/-- The place at another offset of the same buffer. -/
def seek (r : PacketReader) (offset : Nat) : PacketReader :=
  mkAt r.buffer offset

/-- The place `n` bytes further on. -/
def advance (r : PacketReader) (n : Nat) : PacketReader :=
  ⟨r.buffer, r.offset + n, r.rest.drop n, by rw [r.rest_eq, List.drop_drop]⟩

def atEnd (r : PacketReader) : Bool :=
  r.rest.isEmpty

/-- The packet at this place and its length; `none` at the end. -/
def peek (r : PacketReader) : Except PacketError (Option (Packet × Nat)) :=
  match Packet.parse r.rest with
  | .ok found => .ok found
  | .error fault => .error ⟨r.offset, fault⟩

/-- Advancing is seeking relative to the place. -/
theorem advance_eq_seek (r : PacketReader) (n : Nat) : r.advance n = r.seek (r.offset + n) := by
  obtain ⟨buffer, offset, rest, rfl⟩ := r
  simp [advance, seek, mkAt, List.drop_drop]

theorem parse_of_peek {r : PacketReader} {p : Packet} {n : Nat}
    (h : r.peek = .ok (some (p, n))) : Packet.parse r.rest = .ok (some (p, n)) := by
  unfold peek at h
  split at h
  next hp => cases h; exact hp
  next => cases h

/-- Advancing over a packet leaves fewer bytes. -/
theorem advance_rest_lt {r : PacketReader} {p : Packet} {n : Nat}
    (h : r.peek = .ok (some (p, n))) : (r.advance n).rest.length < r.rest.length := by
  have hl := Packet.parse_length (parse_of_peek h)
  simp only [advance, List.length_drop]
  omega

/-- The next packet with its offset, and the place behind it.  After a fault
the place is the end of the buffer. -/
def next (r : PacketReader) : Option (Except PacketError (Nat × Packet)) × PacketReader :=
  match r.peek with
  | .ok none => (none, r)
  | .ok (some (p, n)) => (some (.ok (r.offset, p)), r.advance n)
  | .error e => (some (.error e), r.seek r.buffer.length)

/-- All packets from the place on, with their offsets.  A fault is the last
item. -/
def items (r : PacketReader) : List (Except PacketError (Nat × Packet)) :=
  match _h : r.peek with
  | .ok none => []
  | .ok (some (p, n)) => .ok (r.offset, p) :: (r.advance n).items
  | .error e => [.error e]
termination_by r.rest.length
decreasing_by exact advance_rest_lt ‹_›

/-- The place behind all of `items`. -/
def drained (r : PacketReader) : PacketReader :=
  match _h : r.peek with
  | .ok none => r
  | .ok (some (_, n)) => (r.advance n).drained
  | .error _ => r.seek r.buffer.length
termination_by r.rest.length
decreasing_by exact advance_rest_lt ‹_›

/-- The packet at the place or behind it that is the first to matter for the
path of execution. -/
def firstFlowPacket (r : PacketReader) : Except PacketError (Option Packet) :=
  match _h : r.peek with
  | .error e => .error e
  | .ok none => .ok none
  | .ok (some (p, n)) => if p.isTiming then (r.advance n).firstFlowPacket else .ok (some p)
termination_by r.rest.length
decreasing_by exact advance_rest_lt ‹_›

end PacketReader

end BranchWatch
