import BranchWatch.Instruction.Opcode.Basic

/-!
# One-byte opcodes

The numbers of the prefixes and of the escape to the second table do not get
here.
-/

namespace BranchWatch

namespace Opcode

/-- The extensions of the floating-point opcodes that are defined with a
memory operand. -/
def floatMemory (op reg : Nat) : Bool :=
  match op, reg with
  | 0xd9, 1 | 0xdb, 4 | 0xdb, 6 | 0xdd, 5 => false
  | _, _ => true

/-- The floating-point opcodes that are defined with register operands. -/
def floatRegister (op reg rm : Nat) : Bool :=
  match op, reg with
  | 0xd9, 2 => rm = 0
  | 0xd9, 4 => rm = 0 ∨ rm = 1 ∨ rm = 4 ∨ rm = 5
  | 0xd9, 5 => rm ≠ 7
  | 0xda, 4 | 0xda, 6 | 0xda, 7 => false
  | 0xda, 5 => rm = 1
  | 0xdb, 4 => rm < 6
  | 0xdb, 7 => false
  | 0xdd, 6 | 0xdd, 7 => false
  | 0xde, 3 => rm = 1
  | 0xdf, 4 => rm < 3
  | 0xdf, 7 => false
  | _, _ => true

/-- A floating-point instruction. -/
def float (op : Nat) : Opcode :=
  operands fun m =>
    if (if m.isMemory then floatMemory op m.reg else floatRegister op m.reg m.rm) then some {}
    else none

/-- Arithmetic with an immediate: all but the comparison may be locked. -/
def arithmetic (i : Immediate) : Opcode :=
  operands fun m =>
    some { immediate := i, locking := if m.reg = 7 then .never else .memory }

/-- The group of tests, negations, multiplications and divisions. -/
def unary (i : Immediate) : Opcode :=
  group [some { immediate := i }, some { immediate := i },
    some { locking := .memory }, some { locking := .memory },
    some {}, some {}, some {}, some {}]

/-- The groups that move an immediate.  Their last extension, with one fixed
ModRM byte, belongs to the transactions. -/
def moveImmediate (i transactional : Immediate) : Opcode :=
  operands fun m =>
    if m.reg = 0 then some { immediate := i }
    else if m = ⟨3, 7, 0⟩ then some { immediate := transactional, control := .transaction }
    else none

/-- Increments and decrements, then near and far branches through an operand.
The far ones read a pointer from memory. -/
def branchGroup : Opcode :=
  operands fun m =>
    match m.reg with
    | 0 | 1 => some { locking := .memory }
    | 2 => some { control := .indirectCall, near := true }
    | 3 => if m.isMemory then some { control := .indirectCall } else none
    | 4 => some { control := .indirectBranch, near := true }
    | 5 => if m.isMemory then some { control := .indirectBranch } else none
    | 6 => some {}
    | _ => none

/-- The eight opcodes that each two-operand operation has, and the segment
register and adjustment opcodes that share their rows. -/
def operation (mode : ExecMode) (op : Nat) : Opcode :=
  match op % 8 with
  | 0 | 1 => if op < 0x38 then lockable else any
  | 2 | 3 => any
  | 4 => immediate .byte
  | 5 => immediate .operand
  | _ => not64 mode simple

/-- The one-byte opcodes. -/
def primary (mode : ExecMode) (op : Nat) : Opcode :=
  if op < 0x40 then operation mode op
  else if op < 0x60 then simple
  else match op with
  | 0x60 | 0x61 => not64 mode simple
  | 0x62 => not64 mode memory
  | 0x63 => any
  | 0x68 => immediate .operand
  | 0x69 => any .operand
  | 0x6a => immediate .byte
  | 0x6b => any .byte
  | 0x6c | 0x6d | 0x6e | 0x6f => simple
  | 0x70 | 0x71 | 0x72 | 0x73 | 0x74 | 0x75 | 0x76 | 0x77
  | 0x78 | 0x79 | 0x7a | 0x7b | 0x7c | 0x7d | 0x7e | 0x7f => near .conditionalBranch .byte
  | 0x80 | 0x83 => arithmetic .byte
  | 0x81 => arithmetic .operand
  | 0x82 => not64 mode (arithmetic .byte)
  | 0x84 | 0x85 => any
  | 0x86 | 0x87 => lockable
  | 0x88 | 0x89 | 0x8a | 0x8b => any
  | 0x8c => operands fun m => if m.reg < 6 then some {} else none
  | 0x8d => memory
  | 0x8e => operands fun m => if m.reg < 6 ∧ m.reg ≠ 1 then some {} else none
  | 0x8f => operands fun m => if m.reg = 0 then some {} else none
  | 0x9a => not64 mode (transfer .call .pointer)
  | 0xa0 | 0xa1 | 0xa2 | 0xa3 => immediate .address
  | 0xa8 => immediate .byte
  | 0xa9 => immediate .operand
  | 0xb0 | 0xb1 | 0xb2 | 0xb3 | 0xb4 | 0xb5 | 0xb6 | 0xb7 => immediate .byte
  | 0xb8 | 0xb9 | 0xba | 0xbb | 0xbc | 0xbd | 0xbe | 0xbf => immediate .wide
  | 0xc0 | 0xc1 => any .byte
  | 0xc2 => near .ret .word
  | 0xc3 => near .ret
  | 0xc4 | 0xc5 => not64 mode memory
  | 0xc6 => moveImmediate .byte .byte
  | 0xc7 => moveImmediate .operand .operand
  | 0xc8 => immediate .wordAndByte
  | 0xca => transfer .ret .word
  | 0xcb | 0xcf => transfer .ret
  | 0xcc | 0xf1 => transfer .interrupt
  | 0xcd => transfer .interrupt .byte
  | 0xce => not64 mode (transfer .interrupt)
  | 0xd0 | 0xd1 | 0xd2 | 0xd3 => any
  | 0xd4 | 0xd5 => not64 mode (immediate .byte)
  | 0xd6 => not64 mode simple
  | 0xd8 | 0xd9 | 0xda | 0xdb | 0xdc | 0xdd | 0xde | 0xdf => float op
  | 0xe0 | 0xe1 | 0xe2 | 0xe3 => near .conditionalBranch .byte
  | 0xe4 | 0xe5 | 0xe6 | 0xe7 => immediate .byte
  | 0xe8 => near .call .branch
  | 0xe9 => near .unconditionalBranch .branch
  | 0xea => not64 mode (transfer .unconditionalBranch .pointer)
  | 0xeb => near .unconditionalBranch .byte
  | 0xf6 => unary .byte
  | 0xf7 => unary .operand
  | 0xfe => operands fun m => if m.reg < 2 then some { locking := .memory } else none
  | 0xff => branchGroup
  | _ => simple

end Opcode

end BranchWatch
