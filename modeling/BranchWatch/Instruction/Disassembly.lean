import BranchWatch.Instruction.Basic

/-!
# Disassemblers

How the bytes of an instruction are laid out is not the business of those who
follow a trace.  They ask a disassembler, and a `Disassembler` may answer to
bytes at an address in any way: with an instruction, with the complaint that
there are too few bytes, or with the complaint that there is no instruction.

From an instruction one learns its length and how it continues
(`Disassembled.flow`).  A disassembler tells the kinds of continuation apart more
coarsely than `Flow` does, and asks for a second look in most of them: a call, for
example, may be near or far, and a system call is one of the far ones.

`Disassembler.Lawful` is what is relied on where more than that is needed.
-/

namespace BranchWatch

/-- How an instruction continues, in the terms of disassemblers. -/
inductive ControlFlow where
  /-- With the next instruction in memory. -/
  | next
  /-- A direct jump, near or far. -/
  | unconditionalBranch
  /-- A jump through an operand, near or far. -/
  | indirectBranch
  | conditionalBranch
  /-- A return of any kind: near, far, or from an interrupt or a system call. -/
  | ret
  /-- A direct call, near or far, and every entry to a system. -/
  | call
  /-- A call through an operand, near or far. -/
  | indirectCall
  /-- A software interrupt. -/
  | interrupt
  /-- The start, the failure or the end of a transaction. -/
  | transaction
  /-- An instruction that is there to fault. -/
  | exception
  deriving DecidableEq, Repr

/-- The opcodes of the near returns, by the operand size and whether the stack is
cleared; `other` stands for every other opcode. -/
inductive OpcodeName where
  | retnw
  | retnwImmediate
  | retnd
  | retndImmediate
  | retnq
  | retnqImmediate
  | other
  deriving DecidableEq, Repr

/-- The opcode is that of a near return. -/
def OpcodeName.isNearReturn : OpcodeName → Bool
  | retnw | retnwImmediate | retnd | retndImmediate | retnq | retnqImmediate => true
  | other => false

/-- What a disassembler says about an instruction. -/
structure Disassembled where
  length : Nat
  control : ControlFlow
  opcode : OpcodeName := .other
  isNearJump : Bool := false
  isNearIndirectJump : Bool := false
  isNearCall : Bool := false
  isNearIndirectCall : Bool := false
  /-- Where a direct near branch goes. -/
  target : UInt64 := 0
  deriving DecidableEq, Repr

/-- Where execution may go after an instruction.  What is not known to stay in the
code segment is a far transfer. -/
def Disassembled.flow (i : Disassembled) : Flow :=
  match i.control with
  | .next | .transaction | .exception => .next
  | .conditionalBranch => .conditional i.target
  | .unconditionalBranch => if i.isNearJump then .jump i.target else .far
  | .indirectBranch => if i.isNearIndirectJump then .indirectJump else .far
  | .call => if i.isNearCall then .call i.target else .far
  | .indirectCall => if i.isNearIndirectCall then .indirectCall else .far
  | .ret => if i.opcode.isNearReturn then .ret else .far
  | .interrupt => .far

/-- The answer of a disassembler. -/
inductive Disassembly where
  | instruction (i : Disassembled)
  /-- The bytes end inside the instruction. -/
  | noMoreBytes
  | invalid
  deriving DecidableEq, Repr

/-- What the bytes at an address are, in a mode of execution. -/
abbrev Disassembler := ExecMode → UInt64 → List UInt8 → Disassembly

/-- What is relied on of a disassembler. -/
structure Disassembler.Lawful (disassembler : Disassembler) : Prop where
  /-- An instruction has at least one byte, and no more than were given. -/
  length {mode : ExecMode} {ip : UInt64} {bytes : List UInt8} {i : Disassembled} :
    disassembler mode ip bytes = .instruction i → 0 < i.length ∧ i.length ≤ bytes.length
  /-- Only bytes that are fewer than an instruction may have can be too few. -/
  short {mode : ExecMode} {ip : UInt64} {bytes : List UInt8} :
    disassembler mode ip bytes = .noMoreBytes → bytes.length < maxInstructionLength

end BranchWatch
