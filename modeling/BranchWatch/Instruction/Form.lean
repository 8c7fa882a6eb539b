import BranchWatch.Instruction.Disassembly

/-!
# The shape of an instruction

An instruction consists of prefixes, an opcode of one to three bytes, for most
opcodes a ModRM byte with a SIB byte and a displacement, and immediate bytes.
This file holds the parts whose size and meaning depend on the opcode only
through a `Form`: what the immediate bytes are, how the instruction continues,
and whether it may be locked.
-/

namespace BranchWatch

/-- The immediate bytes at the end of an instruction. -/
inductive Immediate where
  | none
  | byte
  | word
  /-- Two or four bytes, by the operand size. -/
  | operand
  /-- Two, four or eight bytes, by the operand size. -/
  | wide
  /-- Two, four or eight bytes, by the address size. -/
  | address
  /-- A far pointer: an offset of the operand size and a segment. -/
  | pointer
  /-- A word and a byte. -/
  | wordAndByte
  /-- The displacement of a near branch. -/
  | branch
  deriving DecidableEq, Repr

/-- When a lock prefix is accepted. -/
inductive Locking where
  | never
  /-- If the destination is in memory. -/
  | memory
  | always
  deriving DecidableEq, Repr

structure Form where
  immediate : Immediate := .none
  control : ControlFlow := .next
  /-- A jump, call or return that stays in the code segment. -/
  near : Bool := false
  locking : Locking := .never
  deriving DecidableEq, Repr

/-- The ModRM byte: an addressing mode, a register or opcode extension, and a
register or the form of a memory operand. -/
structure ModRm where
  mode : Nat
  reg : Nat
  rm : Nat
  deriving DecidableEq, Repr

namespace ModRm

def ofByte (b : UInt8) : ModRm :=
  ⟨b.toNat / 64, b.toNat / 8 % 8, b.toNat % 8⟩

/-- The operand is in memory, not in a register. -/
def isMemory (m : ModRm) : Bool := m.mode ≠ 3

end ModRm

/-- What a string prefix stands for.  Many opcodes take the last of them as a
part of the opcode. -/
inductive Repeat where
  | none
  /-- The byte `f2`. -/
  | whileNotEqual
  /-- The byte `f3`. -/
  | whileEqual
  deriving DecidableEq, Repr

/-- The prefixes of an instruction that its length or validity depends on. -/
structure Prefixes where
  lock : Bool := false
  operandSize : Bool := false
  addressSize : Bool := false
  repeats : Repeat := .none
  /-- The REX byte, or zero without one. -/
  rex : UInt8 := 0
  deriving DecidableEq, Repr

namespace Prefixes

/-- Reads the prefixes at the front of an instruction.  Only a REX byte that
stands directly before the opcode counts, so every other prefix drops it. -/
def scan (mode : ExecMode) (p : Prefixes) : List UInt8 → Prefixes × List UInt8
  | [] => (p, [])
  | b :: rest =>
    if b = 0x66 then scan mode { p with operandSize := true, rex := 0 } rest
    else if b = 0x67 then scan mode { p with addressSize := true, rex := 0 } rest
    else if b = 0xf0 then scan mode { p with lock := true, rex := 0 } rest
    else if b = 0xf2 then scan mode { p with repeats := .whileNotEqual, rex := 0 } rest
    else if b = 0xf3 then scan mode { p with repeats := .whileEqual, rex := 0 } rest
    else if b = 0x26 ∨ b = 0x2e ∨ b = 0x36 ∨ b = 0x3e ∨ b = 0x64 ∨ b = 0x65 then
      scan mode { p with rex := 0 } rest
    else if mode = .bits64 ∧ b &&& 0xf0 = 0x40 then scan mode { p with rex := b } rest
    else (p, b :: rest)

theorem scan_length_le (mode : ExecMode) (p : Prefixes) (bytes : List UInt8) :
    (scan mode p bytes).2.length ≤ bytes.length := by
  induction bytes generalizing p with
  | nil => exact Nat.le_refl _
  | cons b rest ih =>
    have step : ∀ q : Prefixes, (scan mode q rest).2.length ≤ (b :: rest).length :=
      fun q => Nat.le_trans (ih q) (Nat.le_succ _)
    unfold scan
    repeat' split
    all_goals first | exact step _ | exact Nat.le_refl _

/-- The REX bit that makes operands 64 bits wide. -/
def wide (p : Prefixes) : Bool := p.rex &&& 8 ≠ 0

/-- The REX bit that extends the register field. -/
def extendsReg (p : Prefixes) : Bool := p.rex &&& 4 ≠ 0

/-- The size of operands in bytes. -/
def operandBytes (mode : ExecMode) (p : Prefixes) : Nat :=
  if p.wide then 8
  else match mode, p.operandSize with
    | .bits16, false | .bits32, true | .bits64, true => 2
    | .bits16, true | .bits32, false | .bits64, false => 4

/-- The size of addresses in bytes. -/
def addressBytes (mode : ExecMode) (p : Prefixes) : Nat :=
  match mode, p.addressSize with
  | .bits16, false | .bits32, true => 2
  | .bits16, true | .bits32, false | .bits64, true => 4
  | .bits64, false => 8

end Prefixes

namespace Immediate

/-- How many bytes an immediate takes.  Near branches in 64-bit code always
have four bytes. -/
def size (mode : ExecMode) (p : Prefixes) : Immediate → Nat
  | none => 0
  | byte => 1
  | word => 2
  | operand => min 4 (p.operandBytes mode)
  | wide => p.operandBytes mode
  | address => p.addressBytes mode
  | pointer => p.operandBytes mode + 2
  | wordAndByte => 3
  | branch => if mode = .bits64 then 4 else p.operandBytes mode

end Immediate

namespace ModRm

/-- How many bytes follow the ModRM byte for its operand: a SIB byte and a
displacement.  `next` is the byte after the ModRM byte. -/
def operandSize (mode : ExecMode) (p : Prefixes) (m : ModRm) (next : Option UInt8) : Nat :=
  if m.mode = 3 then 0
  else if p.addressBytes mode = 2 then
    match m.mode with
    | 0 => if m.rm = 6 then 2 else 0
    | 1 => 1
    | _ => 2
  else
    let sib := if m.rm = 4 then 1 else 0
    let base := if m.rm = 4 then (next.getD 0).toNat % 8 else m.rm
    match m.mode with
    | 0 => sib + if base = 5 then 4 else 0
    | 1 => sib + 1
    | _ => sib + 4

end ModRm

end BranchWatch
