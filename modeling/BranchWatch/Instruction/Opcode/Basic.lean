import BranchWatch.Instruction.Form

/-!
# Opcodes

An opcode says whether a ModRM byte follows and, given that byte, which form
the instruction has.  An opcode without a form stands for no instruction.

The tables that give each number its opcode are in `Primary`, `Secondary` and
`Vector`.  They hold the general, floating-point and packed instructions of
the classic encodings.  The prefix bytes of the newer vector encodings, and
the old packed-float opcodes whose meaning stands in a suffix, stand for no
instruction here.
-/

namespace BranchWatch

/-- What an opcode number stands for. -/
inductive Opcode where
  /-- No ModRM byte follows. -/
  | plain (form : Form)
  /-- A ModRM byte follows and may select the form. -/
  | operands (form : ModRm → Option Form)
  /-- The same, but both operands are registers whatever the addressing mode
  says. -/
  | registers (form : ModRm → Option Form)
  /-- No instruction, with no further byte looked at. -/
  | undefined

namespace Opcode

/-- An ordinary instruction without operands. -/
def simple : Opcode := plain {}

/-- An ordinary instruction whose operand is an immediate. -/
def immediate (i : Immediate) : Opcode := plain { immediate := i }

/-- An instruction without operands that does not simply go on. -/
def transfer (control : ControlFlow) (i : Immediate := .none) : Opcode :=
  plain { control, immediate := i }

/-- The same, within the code segment. -/
def near (control : ControlFlow) (i : Immediate := .none) : Opcode :=
  plain { control, near := true, immediate := i }

/-- An instruction that 64-bit mode does not have. -/
def not64 (mode : ExecMode) (o : Opcode) : Opcode :=
  if mode = .bits64 then undefined else o

/-- An ordinary instruction with an operand in memory or a register. -/
def any (i : Immediate := .none) : Opcode :=
  operands fun _ => some { immediate := i }

/-- The same, where a lock prefix is accepted before a memory operand. -/
def lockable (i : Immediate := .none) : Opcode :=
  operands fun _ => some { immediate := i, locking := .memory }

/-- An ordinary instruction with an operand in memory. -/
def memory (i : Immediate := .none) : Opcode :=
  operands fun m => if m.isMemory then some { immediate := i } else none

/-- An ordinary instruction with register operands only. -/
def register (i : Immediate := .none) : Opcode :=
  operands fun m => if m.isMemory then none else some { immediate := i }

/-- A number that no instruction uses, with a ModRM byte behind it. -/
def unused : Opcode := operands fun _ => none

/-- The extension in the ModRM byte selects among eight forms. -/
def group (forms : List (Option Form)) : Opcode :=
  operands fun m => (forms[m.reg]?).join

end Opcode

end BranchWatch
