import BranchWatch.Instruction.Mode
import BranchWatch.Text.Hex

/-!
# Executed instructions

What the reconstruction of a path says about one instruction: where it was,
its bytes, and its class.  `Flow` is what a decoder of instructions must know
to find the next one; the class is a summary of it.
-/

namespace BranchWatch

/-- What an instruction does to the path of execution. -/
inductive InstructionClass where
  /-- Falls through to the next instruction. -/
  | ordinary
  /-- Direct or indirect near call. -/
  | nearCall
  | nearReturn
  /-- Direct or indirect near jump. -/
  | nearJump
  /-- Conditional jump, the loop instructions among them. -/
  | conditionalJump
  /-- Anything that leaves the code segment or the privilege level: far
  calls, jumps and returns, system calls, interrupts. -/
  | farTransfer
  deriving DecidableEq, Repr, Inhabited

namespace InstructionClass

def name : InstructionClass → String
  | ordinary => "Ordinary"
  | nearCall => "NearCall"
  | nearReturn => "NearReturn"
  | nearJump => "NearJump"
  | conditionalJump => "ConditionalJump"
  | farTransfer => "FarTransfer"

/-- The class of a given name. -/
def ofName? (s : String) : Option InstructionClass :=
  [ordinary, nearCall, nearReturn, nearJump, conditionalJump, farTransfer].find? (·.name = s)

end InstructionClass

/-- Where execution may go after an instruction. -/
inductive Flow where
  /-- The next instruction in memory. -/
  | next
  /-- The target if the branch is taken, else the next instruction. -/
  | conditional (target : UInt64)
  | jump (target : UInt64)
  | indirectJump
  | call (target : UInt64)
  | indirectCall
  | ret
  /-- A far transfer. -/
  | far
  deriving DecidableEq, Repr, Inhabited

def Flow.cls : Flow → InstructionClass
  | next => .ordinary
  | conditional _ => .conditionalJump
  | jump _ | indirectJump => .nearJump
  | call _ | indirectCall => .nearCall
  | ret => .nearReturn
  | far => .farTransfer

/-- No instruction is longer than this many bytes. -/
def maxInstructionLength : Nat := 15

/-- One executed instruction. -/
structure InstructionRecord where
  ip : UInt64
  bytes : List UInt8
  mode : ExecMode
  cls : InstructionClass
  bytes_length_le : bytes.length ≤ maxInstructionLength
  deriving DecidableEq

namespace InstructionRecord

/-- The record of known parts; bytes beyond the longest instruction are cut. -/
def ofParts (ip : UInt64) (bytes : List UInt8) (mode : ExecMode) (cls : InstructionClass) :
    InstructionRecord :=
  ⟨ip, bytes.take maxInstructionLength, mode, cls, List.length_take_le _ _⟩

/-- A record that only carries a class. -/
def synthetic (cls : InstructionClass) : InstructionRecord :=
  ofParts 0 [] .bits64 cls

/-- The length of the instruction in bytes. -/
def size (r : InstructionRecord) : Nat := r.bytes.length

/-- The record with the names of its fields. -/
def describe (r : InstructionRecord) : String :=
  "InstructionRecord \x7b ip: " ++ Hex.number r.ip.toNat
    ++ ", bytes: " ++ Hex.byteList r.bytes
    ++ ", mode: " ++ r.mode.name
    ++ ", class: " ++ r.cls.name ++ " \x7d"

instance : Inhabited InstructionRecord := ⟨synthetic .ordinary⟩

end InstructionRecord

end BranchWatch
