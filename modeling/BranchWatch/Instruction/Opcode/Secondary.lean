import BranchWatch.Instruction.Opcode.Vector

/-!
# Two-byte opcodes

The opcodes that follow the byte `0f`: conditional branches with a long
displacement, system instructions, bit operations and, through the table of
`Vector`, the packed ones.
-/

namespace BranchWatch

namespace Opcode

/-- Task and local segments, and the one base that only 64-bit code has. -/
def segmentGroup (mode : ExecMode) (p : Prefixes) : Opcode :=
  operands fun m =>
    if m.reg < 6 ∨ (m.reg = 6 ∧ mode = .bits64 ∧ p.repeats = .whileNotEqual) then some {}
    else none

/-- System instructions whose whole ModRM byte is part of the opcode.  The
argument is that byte. -/
def systemRegister (mode : ExecMode) (p : Prefixes) (b : Nat) : Option Form :=
  let bare := p.repeats = .none ∧ p.operandSize = false
  let when (c : Bool) (f : Form) : Option Form := if c then some f else none
  let enter : Form := { control := .call }
  let leave : Form := { control := .ret }
  match b with
  | 0xc0 | 0xc5 | 0xc8 | 0xc9 | 0xcb | 0xd0 | 0xd1 | 0xd4 | 0xd6 | 0xd7 => when bare {}
  | 0xd5 => when bare { control := .transaction }
  | 0xc1 | 0xc2 | 0xc3 => when bare enter
  | 0xc4 => when bare {}
  | 0xc6 =>
    when (bare ∨ (mode = .bits64 ∧ p.repeats ≠ .none)) {}
  | 0xca =>
    if p.repeats ≠ .none then when (mode = .bits64) leave else when bare {}
  | 0xc7 => when (mode = .bits64 ∧ bare) {}
  | 0xcc => when (p.repeats = .none ∧ p.operandSize) enter
  | 0xcd => when (mode = .bits64 ∧ p.repeats = .none ∧ p.operandSize) enter
  | 0xce => when (mode = .bits64 ∧ p.repeats = .none ∧ p.operandSize) {}
  | 0xcf => if bare then some {} else when (mode = .bits64 ∧ p.repeats = .none) enter
  | 0xd8 | 0xd9 => some enter
  | 0xde => some leave
  | 0xda | 0xdb | 0xdc | 0xdd | 0xdf => some {}
  | 0xe8 => when (bare ∨ p.repeats ≠ .none) {}
  | 0xe9 => when (p.repeats = .whileNotEqual) {}
  | 0xea => when (p.repeats = .whileEqual) {}
  | 0xec => when (mode = .bits64 ∧ p.repeats = .whileEqual) leave
  | 0xed => when (mode = .bits64 ∧ p.repeats = .whileEqual) {}
  | 0xee | 0xef => when (bare ∨ (mode = .bits64 ∧ p.repeats = .whileEqual)) {}
  | 0xf8 => when (mode = .bits64) {}
  | 0xf9 | 0xfa | 0xfb | 0xfc | 0xfd => some {}
  | 0xfe | 0xff => when (bare ∨ p.repeats ≠ .none) {}
  | _ => none

/-- Descriptor tables and the machine status word in memory, system
instructions without operands otherwise. -/
def systemGroup (mode : ExecMode) (p : Prefixes) : Opcode :=
  operands fun m =>
    if m.reg = 4 ∨ m.reg = 6 then some {}
    else if m.isMemory then
      if m.reg = 5 then (if p.repeats = .whileEqual then some {} else none) else some {}
    else systemRegister mode p (0xc0 + 8 * m.reg + m.rm)

/-- Control and debug registers.  Only the control registers 0, 2, 3, 4 and 8
exist; writing register 0 with a lock prefix stands for register 8. -/
def controlRegister (p : Prefixes) : Opcode :=
  registers fun m =>
    let number := m.reg + if p.extendsReg then 8 else 0
    if number = 0 then some { locking := .always }
    else if number = 1 ∨ (number ≥ 5 ∧ number ≠ 8) then none
    else some {}

def debugRegister (p : Prefixes) : Opcode :=
  registers fun _ => if p.extendsReg then none else some {}

/-- State saving and memory fences. -/
def stateGroup (mode : ExecMode) (p : Prefixes) : Opcode :=
  operands fun m =>
    let access : PrefixAccess :=
      if m.isMemory then
        match m.reg with
        | 4 => { bare := .any, repEqual := .any }
        | 6 => { bare := .any, sized := .any, repEqual := .any }
        | 7 => { bare := .any, sized := .any }
        | _ => { bare := .any }
      else
        match m.reg with
        | 0 | 1 | 2 | 3 => if mode = .bits64 then { repEqual := .any } else {}
        | 4 => { repEqual := .any }
        | 5 => { bare := .any, repEqual := .any }
        | 6 => { bare := .any, sized := .any, repEqual := .any, repNotEqual := .any }
        | _ => { bare := .any, sized := .any }
    if (access.select p).allows m then some {} else none

/-- Wide compare and exchange, extended state, random numbers. -/
def exchangeGroup (mode : ExecMode) (p : Prefixes) : Opcode :=
  operands fun m =>
    if m.reg = 1 ∧ m.isMemory then some { locking := .memory }
    else
      let access : PrefixAccess :=
        if m.isMemory then
          match m.reg with
          | 3 | 4 | 5 => { bare := .any }
          | 6 => { bare := .any, sized := .any, repEqual := .any }
          | 7 => { bare := .any }
          | _ => {}
        else
          match m.reg with
          | 6 =>
            { bare := .any, sized := .any,
              repEqual := if mode = .bits64 then .any else .never }
          | 7 => { bare := .any, sized := .any, repEqual := .any }
          | _ => {}
      if (access.select p).allows m then some {} else none

/-- Virtual machine fields and bit field extraction. -/
def fieldAccess (p : Prefixes) (op : Nat) : Opcode :=
  operands fun m =>
    let bits : Immediate := if op = 0x78 then .word else .none
    match p.repeats with
    | .whileEqual => none
    | .whileNotEqual => if m.isMemory then none else some { immediate := bits }
    | .none =>
      if p.operandSize then
        if m.isMemory ∨ (op = 0x78 ∧ m.reg ≠ 0) then none else some { immediate := bits }
      else some {}

/-- A number and a register tested for one bit, by an immediate. -/
def bitGroup : Opcode :=
  operands fun m =>
    if m.reg < 4 then none
    else some { immediate := .byte, locking := if m.reg = 4 then .never else .memory }

/-- The two-byte opcodes, by the byte that follows `0f`.  The escapes to the
three-byte tables do not get here. -/
def secondary (mode : ExecMode) (p : Prefixes) (op : Nat) : Opcode :=
  match op with
  | 0x00 => segmentGroup mode p
  | 0x01 => systemGroup mode p
  | 0x02 | 0x03 => any
  | 0x05 => transfer .call
  | 0x07 => transfer .ret
  | 0x06 | 0x08 | 0x09 | 0x0e => simple
  | 0x0b => transfer .exception
  | 0x0d => any
  | 0x18 | 0x19 | 0x1a | 0x1b | 0x1c | 0x1d | 0x1e | 0x1f => any
  | 0x20 | 0x22 => controlRegister p
  | 0x21 | 0x23 => debugRegister p
  | 0x30 | 0x31 | 0x32 | 0x33 | 0x37 => simple
  | 0x34 => transfer .call
  | 0x35 => transfer .ret
  | 0x77 => if p.repeats = .none ∧ p.operandSize = false then simple else undefined
  | 0x78 | 0x79 => fieldAccess p op
  | 0xa0 | 0xa1 | 0xa2 | 0xa8 | 0xa9 => simple
  | 0xaa => transfer .ret
  | 0xa3 | 0xaf => any
  | 0xa4 | 0xac => any .byte
  | 0xa5 | 0xad => any
  | 0xab | 0xb0 | 0xb1 | 0xb3 | 0xbb | 0xc0 | 0xc1 => lockable
  | 0xae => stateGroup mode p
  | 0xb2 | 0xb4 | 0xb5 => memory
  | 0xb6 | 0xb7 | 0xbc | 0xbd | 0xbe | 0xbf => any
  | 0xb9 | 0xff => operands fun _ => some { control := .exception }
  | 0xb8 => if p.repeats = .whileEqual then any else unused
  | 0xba => bitGroup
  | 0xc7 => exchangeGroup mode p
  | 0xc8 | 0xc9 | 0xca | 0xcb | 0xcc | 0xcd | 0xce | 0xcf => simple
  | _ =>
    if 0x40 ≤ op ∧ op < 0x50 ∨ 0x90 ≤ op ∧ op < 0xa0 then any
    else if 0x80 ≤ op ∧ op < 0x90 then near .conditionalBranch .branch
    else (vector? p op).getD unused

end Opcode

end BranchWatch
