import BranchWatch.LittleEndian
import BranchWatch.Instruction.Opcode.Primary
import BranchWatch.Instruction.Opcode.Secondary

/-!
# The disassembler of the classic encodings

`Disassembler.classic` reads the instruction at the front of a byte sequence by
the opcode tables.  It looks at no more than the fifteen bytes an instruction may
have.  Where bytes are missing it tells two cases apart: the instruction may go on
behind the end of a shorter sequence (`noMoreBytes`), but with fifteen bytes given
it is too long and therefore not an instruction.

It is a lawful disassembler (`Disassembler.classic_lawful`).
-/

namespace BranchWatch

namespace Instruction

/-- The answer where a byte is missing. -/
def missing (available : Nat) : Disassembly :=
  if available < maxInstructionLength then .noMoreBytes else .invalid

/-- The number whose two's complement is the byte sequence, lowest first. -/
def signed (bytes : List UInt8) : UInt64 :=
  let n := LittleEndian.value bytes
  let top := Nat.pow 256 bytes.length
  if 2 * n < top then n.toUInt64 else n.toUInt64 - top.toUInt64

/-- The bits that a branch target keeps: all in 64-bit code, otherwise as many
as an operand has. -/
def targetMask (mode : ExecMode) (p : Prefixes) : UInt64 :=
  if mode = .bits64 then 0xffffffffffffffff
  else if p.operandBytes mode = 2 then 0xffff
  else 0xffffffff

/-- The opcode of a near return. -/
def returnOpcode (mode : ExecMode) (p : Prefixes) (immediate : Immediate) : OpcodeName :=
  match decide (p.operandBytes mode = 2), decide (mode = .bits64), decide (immediate = .none) with
  | true, _, true => .retnw
  | true, _, false => .retnwImmediate
  | false, true, true => .retnq
  | false, true, false => .retnqImmediate
  | false, false, true => .retnd
  | false, false, false => .retndImmediate

/-- An instruction of a given form and length that starts at `ip`, with its
immediate bytes. -/
def describe (mode : ExecMode) (p : Prefixes) (ip : UInt64) (length : Nat)
    (immediate : List UInt8) (form : Form) : Disassembled where
  length
  control := form.control
  opcode :=
    if form.near && form.control = .ret then returnOpcode mode p form.immediate else .other
  isNearJump := form.near && form.control = .unconditionalBranch
  isNearIndirectJump := form.near && form.control = .indirectBranch
  isNearCall := form.near && form.control = .call
  isNearIndirectCall := form.near && form.control = .indirectCall
  target :=
    if form.near && (form.control = .conditionalBranch || form.control = .unconditionalBranch
        || form.control = .call) then
      (ip + length.toUInt64 + signed immediate) &&& targetMask mode p
    else 0

/-- Whether the lock prefix, if there is one, may stand before the form. -/
def lockAccepted (p : Prefixes) (form : Form) (m : Option ModRm) : Bool :=
  !p.lock || match form.locking with
    | .never => false
    | .memory => m.any ModRm.isMemory
    | .always => true

/-- Completes an instruction whose form is known.  `used` bytes belong to it so
far; `rest` follows them, first the `operand` bytes of a memory operand and
then the immediate. -/
def finish (mode : ExecMode) (p : Prefixes) (ip : UInt64) (available used operand : Nat)
    (rest : List UInt8) (form : Form) (m : Option ModRm) : Disassembly :=
  let size := form.immediate.size mode p
  if rest.length < operand + size then missing available
  else if lockAccepted p form m then
    .instruction
      (describe mode p ip (used + operand + size) ((rest.drop operand).take size) form)
  else .invalid

/-- Completes an instruction whose opcode is known; `rest` follows the opcode. -/
def afterOpcode (mode : ExecMode) (p : Prefixes) (ip : UInt64) (available : Nat)
    (rest : List UInt8) : Opcode → Disassembly
  | .undefined => .invalid
  | .plain form => finish mode p ip available (available - rest.length) 0 rest form none
  | .operands forms =>
    match rest with
    | [] => missing available
    | b :: rest =>
      let m := ModRm.ofByte b
      match forms m with
      | none => .invalid
      | some form =>
        finish mode p ip available (available - rest.length)
          (m.operandSize mode p rest.head?) rest form (some m)
  | .registers forms =>
    match rest with
    | [] => missing available
    | b :: rest =>
      match forms (ModRm.ofByte b) with
      | none => .invalid
      | some form => finish mode p ip available (available - rest.length) 0 rest form none

/-- The instruction at the front of `bytes`, which stand at `ip`. -/
def decode (mode : ExecMode) (ip : UInt64) (bytes : List UInt8) : Disassembly :=
  let bytes := bytes.take maxInstructionLength
  let available := bytes.length
  match Prefixes.scan mode {} bytes with
  | (_, []) => missing available
  | (p, 0x0f :: rest) =>
    match rest with
    | [] => missing available
    | 0x38 :: rest =>
      match rest with
      | [] => missing available
      | op :: rest => afterOpcode mode p ip available rest (.threeByte p op.toNat)
    | 0x3a :: rest =>
      match rest with
      | [] => missing available
      | op :: rest => afterOpcode mode p ip available rest (.threeByteImmediate p op.toNat)
    | op :: rest => afterOpcode mode p ip available rest (.secondary mode p op.toNat)
  | (p, op :: rest) => afterOpcode mode p ip available rest (.primary mode op.toNat)

variable {mode : ExecMode} {p : Prefixes} {ip : UInt64} {bytes rest : List UInt8}
  {available used operand : Nat} {form : Form} {m : Option ModRm} {i : Disassembled}

theorem missing_ne (available : Nat) (i : Disassembled) : missing available ≠ .instruction i := by
  unfold missing
  split <;> exact Disassembly.noConfusion

theorem finish_length (hused : 0 < used) (hrest : used + rest.length ≤ available)
    (h : finish mode p ip available used operand rest form m = .instruction i) :
    0 < i.length ∧ i.length ≤ available := by
  unfold finish at h
  simp only at h
  split at h
  next => exact absurd h (missing_ne _ _)
  next hlen =>
    split at h
    next =>
      cases h
      simp only [describe]
      omega
    next => cases h

theorem afterOpcode_length {op : Opcode} (hrest : rest.length < available)
    (h : afterOpcode mode p ip available rest op = .instruction i) :
    0 < i.length ∧ i.length ≤ available := by
  unfold afterOpcode at h
  split at h
  next => cases h
  next => exact finish_length (by omega) (by omega) h
  next =>
    split at h
    next => exact absurd h (missing_ne _ _)
    next b rest =>
      simp only [List.length_cons] at hrest
      simp only at h
      split at h
      next => cases h
      next => exact finish_length (by omega) (by omega) h
  next =>
    split at h
    next => exact absurd h (missing_ne _ _)
    next b rest =>
      simp only [List.length_cons] at hrest
      split at h
      next => cases h
      next => exact finish_length (by omega) (by omega) h

/-- A decoded instruction has at least one byte, and no more than given. -/
theorem decode_length (h : decode mode ip bytes = .instruction i) :
    0 < i.length ∧ i.length ≤ bytes.length := by
  have hs := Prefixes.scan_length_le mode {} (bytes.take maxInstructionLength)
  suffices hn : 0 < i.length ∧ i.length ≤ (bytes.take maxInstructionLength).length by
    rw [List.length_take] at hn; omega
  unfold decode at h
  simp only at h
  split at h
  next => exact absurd h (missing_ne _ _)
  next heq =>
    rw [heq] at hs
    simp only [List.length_cons] at hs
    split at h
    next => exact absurd h (missing_ne _ _)
    next =>
      simp only [List.length_cons] at hs
      split at h
      next => exact absurd h (missing_ne _ _)
      next => simp only [List.length_cons] at hs; exact afterOpcode_length (by omega) h
    next =>
      simp only [List.length_cons] at hs
      split at h
      next => exact absurd h (missing_ne _ _)
      next => simp only [List.length_cons] at hs; exact afterOpcode_length (by omega) h
    next => simp only [List.length_cons] at hs; exact afterOpcode_length (by omega) h
  next heq =>
    rw [heq] at hs
    simp only [List.length_cons] at hs
    exact afterOpcode_length (by omega) h

theorem missing_short (h : missing available = .noMoreBytes) :
    available < maxInstructionLength := by
  unfold missing at h
  split at h
  next hlt => exact hlt
  next => cases h

theorem finish_short
    (h : finish mode p ip available used operand rest form m = .noMoreBytes) :
    available < maxInstructionLength := by
  unfold finish at h
  simp only at h
  split at h
  next => exact missing_short h
  next => split at h <;> cases h

theorem afterOpcode_short {op : Opcode}
    (h : afterOpcode mode p ip available rest op = .noMoreBytes) :
    available < maxInstructionLength := by
  unfold afterOpcode at h
  split at h
  next => cases h
  next => exact finish_short h
  next =>
    split at h
    next => exact missing_short h
    next =>
      simp only at h
      split at h
      next => cases h
      next => exact finish_short h
  next =>
    split at h
    next => exact missing_short h
    next =>
      split at h
      next => cases h
      next => exact finish_short h

/-- Only bytes that are fewer than an instruction may have can be too few. -/
theorem decode_short (h : decode mode ip bytes = .noMoreBytes) :
    bytes.length < maxInstructionLength := by
  suffices havailable : (bytes.take maxInstructionLength).length < maxInstructionLength by
    rw [List.length_take] at havailable
    omega
  unfold decode at h
  simp only at h
  split at h
  next => exact missing_short h
  next =>
    split at h
    next => exact missing_short h
    next =>
      split at h
      next => exact missing_short h
      next => exact afterOpcode_short h
    next =>
      split at h
      next => exact missing_short h
      next => exact afterOpcode_short h
    next => exact afterOpcode_short h
  next => exact afterOpcode_short h

end Instruction

namespace Disassembler

/-- The disassembler that goes by the opcode tables. -/
def classic : Disassembler := Instruction.decode

theorem classic_lawful : classic.Lawful where
  length := Instruction.decode_length
  short := Instruction.decode_short

end Disassembler

end BranchWatch
