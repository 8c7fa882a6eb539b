import BranchWatch.Instruction.Basic

/-!
# The buffer of a window

The instructions of the window under analysis, up to a fixed number.  A window
with more of them is not analysed.
-/

namespace BranchWatch

/-- A window holds more instructions than its buffer can. -/
structure WindowOverflow where
  capacity : Nat
  deriving DecidableEq, Repr

def WindowOverflow.message (e : WindowOverflow) : String :=
  "window holds more than " ++ toString e.capacity ++ " instructions"

structure WindowBuffer where
  capacity : Nat
  records : Array InstructionRecord
  size_le : records.size ≤ capacity

namespace WindowBuffer

def empty (capacity : Nat) : WindowBuffer := ⟨capacity, #[], Nat.zero_le _⟩

/-- Adds an instruction at the end where there is room. -/
def add (b : WindowBuffer) (r : InstructionRecord) (h : b.records.size < b.capacity) :
    WindowBuffer :=
  ⟨b.capacity, b.records.push r, by rw [Array.size_push]; exact h⟩

/-- Adds an instruction at the end, if there is room. -/
def push (b : WindowBuffer) (r : InstructionRecord) : Except WindowOverflow WindowBuffer :=
  if h : b.records.size < b.capacity then .ok (b.add r h) else .error ⟨b.capacity⟩

def clear (b : WindowBuffer) : WindowBuffer := empty b.capacity

def size (b : WindowBuffer) : Nat := b.records.size

def isEmpty (b : WindowBuffer) : Bool := b.records.isEmpty

def toList (b : WindowBuffer) : List InstructionRecord := b.records.toList

end WindowBuffer

end BranchWatch
