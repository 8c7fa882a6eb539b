/-!
# Where a window lies in the ring

The processor writes the trace into a ring and counts the bytes it has written;
the reader counts the bytes it has used.  Both counters run freely modulo
`2 ^ 64`.  `Span.locate` finds the bytes between them in the ring.
-/

namespace BranchWatch

/-- A place in a ring. -/
inductive Span where
  | empty
  /-- The bytes stand in one piece. -/
  | direct (start length : Nat)
  /-- The first bytes stand at the end of the ring, the others at its start. -/
  | wrapped (start first length : Nat)
  deriving DecidableEq, Repr

namespace Span

/-- The place of the bytes from `consumed` up to `head` in a ring of the given
size, and whether they fill the ring.  No more than one ring is located, from
`consumed` on. -/
def locate (consumed head : UInt64) (size : Nat) : Span × Bool :=
  let available := (head - consumed).toNat
  if available = 0 ∨ size = 0 then (empty, false)
  else
    let full : Bool := size ≤ available
    let length := if full then size else available
    let start := consumed.toNat % size
    if start + length ≤ size then (direct start length, full)
    else (wrapped start (size - start) length, full)

/-- The bytes at the place. -/
def bytes (ring : Array UInt8) : Span → List UInt8
  | empty => []
  | direct start length => (ring.extract start (start + length)).toList
  | wrapped start first length =>
    (ring.extract start (start + first)).toList ++ (ring.extract 0 (length - first)).toList

end Span

end BranchWatch
