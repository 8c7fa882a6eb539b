import BranchWatch.Instruction.Opcode.Basic

/-!
# Packed and scalar vector opcodes

Most of these opcodes take a prefix as part of the opcode: none of them, the
operand size prefix, or one of the two string prefixes.  Where both an operand
size and a string prefix stand before the opcode, the string prefix counts.
-/

namespace BranchWatch

/-- Which kind of operand a combination of prefix and opcode accepts. -/
inductive Access where
  | never
  | any
  | memory
  | register
  deriving DecidableEq, Repr

def Access.allows : Access → ModRm → Bool
  | never, _ => false
  | any, _ => true
  | memory, m => m.isMemory
  | register, m => !m.isMemory

/-- The operands that an opcode accepts without a prefix, with the operand size
prefix, with `f3` and with `f2`. -/
structure PrefixAccess where
  bare : Access := .never
  sized : Access := .never
  repEqual : Access := .never
  repNotEqual : Access := .never
  deriving DecidableEq, Repr

namespace PrefixAccess

/-- The column that the prefixes of an instruction select. -/
def select (a : PrefixAccess) (p : Prefixes) : Access :=
  match p.repeats with
  | .whileEqual => a.repEqual
  | .whileNotEqual => a.repNotEqual
  | .none => if p.operandSize then a.sized else a.bare

/-- No prefix or the operand size prefix, with any operand. -/
def packed : PrefixAccess := { bare := .any, sized := .any }

/-- Each of the four, with any operand. -/
def all : PrefixAccess :=
  { bare := .any, sized := .any, repEqual := .any, repNotEqual := .any }

/-- The operand size prefix only. -/
def sizedOnly (a : Access := .any) : PrefixAccess := { sized := a }

end PrefixAccess

namespace Opcode

/-- An ordinary instruction that exists for some prefixes. -/
def prefixed (p : Prefixes) (a : PrefixAccess) (i : Immediate := .none) : Opcode :=
  operands fun m => if (a.select p).allows m then some { immediate := i } else none

/-- The shift groups of packed numbers: registers only, by an immediate. -/
def packedShift (p : Prefixes) (op : Nat) : Opcode :=
  operands fun m =>
    let a : PrefixAccess :=
      if m.reg = 2 ∨ m.reg = 6 ∨ (m.reg = 4 ∧ op ≠ 0x73) then
        { bare := .register, sized := .register }
      else if op = 0x73 ∧ (m.reg = 3 ∨ m.reg = 7) then .sizedOnly .register
      else {}
    if (a.select p).allows m then some { immediate := .byte } else none

/-- The vector opcodes among those that follow the byte `0f`. -/
def vector? (p : Prefixes) (op : Nat) : Option Opcode :=
  match op with
  | 0x10 | 0x11 => prefixed p .all
  | 0x12 => prefixed p { bare := .any, sized := .memory, repEqual := .any, repNotEqual := .any }
  | 0x13 | 0x17 => prefixed p { bare := .memory, sized := .memory }
  | 0x14 | 0x15 | 0x28 | 0x29 | 0x2e | 0x2f | 0x54 | 0x55 | 0x56 | 0x57 => prefixed p .packed
  | 0x16 => prefixed p { bare := .any, sized := .memory, repEqual := .any }
  | 0x2a | 0x2c | 0x2d | 0x51 | 0x58 | 0x59 | 0x5a | 0x5c | 0x5d | 0x5e | 0x5f => prefixed p .all
  | 0x2b =>
    prefixed p { bare := .memory, sized := .memory, repEqual := .memory, repNotEqual := .memory }
  | 0x50 | 0xd7 | 0xf7 => prefixed p { bare := .register, sized := .register }
  | 0x52 | 0x53 => prefixed p { bare := .any, repEqual := .any }
  | 0x5b | 0x6f | 0x7e | 0x7f => prefixed p { bare := .any, sized := .any, repEqual := .any }
  | 0x60 | 0x61 | 0x62 | 0x63 | 0x64 | 0x65 | 0x66 | 0x67
  | 0x68 | 0x69 | 0x6a | 0x6b | 0x6e => prefixed p .packed
  | 0x6c | 0x6d => prefixed p (.sizedOnly)
  | 0x70 => prefixed p .all .byte
  | 0x71 | 0x72 | 0x73 => packedShift p op
  | 0x74 | 0x75 | 0x76 => prefixed p .packed
  | 0x7c | 0x7d | 0xd0 => prefixed p { sized := .any, repNotEqual := .any }
  | 0xc2 => prefixed p .all .byte
  | 0xc3 => prefixed p { bare := .memory }
  | 0xc4 | 0xc6 => prefixed p .packed .byte
  | 0xc5 => prefixed p { bare := .register, sized := .register } .byte
  | 0xd6 => prefixed p { sized := .any, repEqual := .register, repNotEqual := .register }
  | 0xe6 => prefixed p { sized := .any, repEqual := .any, repNotEqual := .any }
  | 0xe7 => prefixed p { bare := .memory, sized := .memory }
  | 0xf0 => prefixed p { repNotEqual := .memory }
  | _ => if 0xd1 ≤ op ∧ op < 0xff then prefixed p .packed else none

/-- The opcodes that follow the bytes `0f 38`. -/
def threeByte (p : Prefixes) (op : Nat) : Opcode :=
  if op ≤ 0x0b ∨ (0x1c ≤ op ∧ op ≤ 0x1e) then prefixed p .packed
  else if op = 0x2a then prefixed p (.sizedOnly .memory)
  else if op = 0x10 ∨ op = 0x14 ∨ op = 0x15 ∨ op = 0x17 ∨ (0x20 ≤ op ∧ op ≤ 0x25)
      ∨ op = 0x28 ∨ op = 0x29 ∨ op = 0x2b ∨ (0x30 ≤ op ∧ op ≤ 0x35)
      ∨ (0x37 ≤ op ∧ op ≤ 0x41) ∨ op = 0xcf then
    prefixed p (.sizedOnly)
  else if 0x80 ≤ op ∧ op ≤ 0x82 then prefixed p (.sizedOnly .memory)
  else if 0xc8 ≤ op ∧ op ≤ 0xcd then prefixed p { bare := .any }
  else if op = 0xd8 then
    operands fun m =>
      if p.repeats = .whileEqual ∧ m.isMemory ∧ m.reg < 4 then some {} else none
  else if op = 0xdb then prefixed p (.sizedOnly)
  else if op = 0xdc then prefixed p { sized := .any, repEqual := .any }
  else if 0xdd ≤ op ∧ op ≤ 0xdf then prefixed p { sized := .any, repEqual := .memory }
  else if op = 0xf0 ∨ op = 0xf1 then
    prefixed p { bare := .memory, sized := .memory, repNotEqual := .any }
  else if op = 0xf5 then prefixed p (.sizedOnly .memory)
  else if op = 0xf6 then prefixed p { bare := .memory, sized := .any, repEqual := .any }
  else if op = 0xf8 then
    prefixed p { sized := .memory, repEqual := .memory, repNotEqual := .memory }
  else if op = 0xf9 then prefixed p { bare := .memory }
  else if op = 0xfa ∨ op = 0xfb then prefixed p { repEqual := .register }
  else if op = 0xfc then
    prefixed p { bare := .memory, sized := .memory, repEqual := .memory, repNotEqual := .memory }
  else unused

/-- The opcodes that follow the bytes `0f 3a`.  All take an immediate byte. -/
def threeByteImmediate (p : Prefixes) (op : Nat) : Opcode :=
  if op = 0x0f then prefixed p .packed .byte
  else if op = 0xcc then prefixed p { bare := .any } .byte
  else if (0x08 ≤ op ∧ op ≤ 0x0e) ∨ (0x14 ≤ op ∧ op ≤ 0x17) ∨ (0x20 ≤ op ∧ op ≤ 0x22)
      ∨ (0x40 ≤ op ∧ op ≤ 0x42) ∨ op = 0x44 ∨ (0x60 ≤ op ∧ op ≤ 0x63)
      ∨ op = 0xce ∨ op = 0xcf ∨ op = 0xdf then
    prefixed p (.sizedOnly) .byte
  else if op = 0xf0 then
    operands fun m =>
      if p.repeats = .whileEqual ∧ m = ⟨3, 0, 0⟩ then some { immediate := .byte } else none
  else unused

end Opcode

end BranchWatch
