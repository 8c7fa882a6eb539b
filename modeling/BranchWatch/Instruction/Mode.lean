/-!
# Execution modes

The processor runs code with 16-bit, 32-bit or 64-bit default sizes.  The
trace reports the mode, and the same bytes read differently in each.
-/

namespace BranchWatch

/-- The default operand and address size of the code being executed. -/
inductive ExecMode where
  | bits16
  | bits32
  | bits64
  deriving DecidableEq, Repr, Inhabited

namespace ExecMode

/-- The number in the name of the mode. -/
def bits : ExecMode → Nat
  | bits16 => 16
  | bits32 => 32
  | bits64 => 64

/-- The name under which records show the mode. -/
def name : ExecMode → String
  | bits16 => "Bits16"
  | bits32 => "Bits32"
  | bits64 => "Bits64"

end ExecMode

end BranchWatch
