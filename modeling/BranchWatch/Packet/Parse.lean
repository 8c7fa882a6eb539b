import BranchWatch.LittleEndian
import BranchWatch.Packet.Basic

/-!
# Reading one packet

`Packet.parse` reads the packet at the front of a byte sequence and says how
many bytes it takes.  What lies behind the packet is never looked at, and the
length is never zero (`parse_length_pos`) nor larger than what there is
(`parse_length_le`), so a reader that advances by the length makes progress
and stays inside the buffer.

When several things are wrong with a packet, an unknown opcode is reported
before a reserved length field, and a reserved length field before a missing
byte.
-/

namespace BranchWatch

namespace Packet

/-- The synchronisation pattern: eight times `02 82`. -/
def psbPattern : List UInt8 :=
  [0x02, 0x82, 0x02, 0x82, 0x02, 0x82, 0x02, 0x82,
   0x02, 0x82, 0x02, 0x82, 0x02, 0x82, 0x02, 0x82]

/-- The branch outcomes of a payload: the bits below its highest set bit,
which only marks where they end.  The oldest outcome is the highest bit. -/
def branchBits (payload : Nat) : List Bool :=
  (List.range payload.log2).reverse.map payload.testBit

/-- The first `n` bytes, if there are as many. -/
def front (n : Nat) (bytes : List UInt8) : Except PacketFault (List UInt8) :=
  if (bytes.take n).length = n then .ok (bytes.take n) else .error .truncated

/-- A packet whose contents do not matter, if its `n` bytes are there. -/
def fixed (p : Packet) (n : Nat) (bytes : List UInt8) : Except PacketFault (Packet × Nat) :=
  if (bytes.take n).length = n then .ok (p, n) else .error .truncated

/-- The mode that the payload of a mode packet reports: bit 0 stands for
64-bit code, otherwise bit 1 for 32-bit code. -/
def modeOf (payload : UInt8) : ExecMode :=
  if payload &&& 1 ≠ 0 then .bits64
  else if payload &&& 2 ≠ 0 then .bits32
  else .bits16

/-- The packet kind that the low five bits of a header select. -/
def ipKind? (header : UInt8) : Option IpKind :=
  match (header &&& 0x1f).toNat with
  | 0x0d => some .tip
  | 0x11 => some .pge
  | 0x01 => some .pgd
  | 0x1d => some .fup
  | _ => none

/-- The payload form that the high three bits of a header select: how many
bytes follow, and how they are understood.  The codes 5 and 7 are reserved. -/
def ipForm? (code : UInt8) : Option (Nat × (UInt64 → IpPayload)) :=
  match code.toNat with
  | 0 => some (0, fun _ => .suppressed)
  | 1 => some (2, .update16)
  | 2 => some (4, .update32)
  | 3 => some (6, .sext48)
  | 4 => some (6, .update48)
  | 6 => some (8, .full)
  | _ => none

/-- Extended packets of a fixed length whose contents do not matter, by the
byte that follows the escape byte. -/
def extendedForm? (opcode : UInt8) : Option (Packet × Nat) :=
  match opcode.toNat with
  | 0x23 => some (psbEnd, 2)
  | 0xf3 => some (overflow, 2)
  | 0x83 => some (traceStop, 2)
  | 0x62 => some (exstop, 2)
  | 0xe2 => some (exstop, 2)
  | 0x03 => some (cbr, 4)
  | 0x22 => some (pwre, 4)
  | 0x73 => some (tma, 7)
  | 0xc8 => some (vmcs, 7)
  | 0xa2 => some (pwrx, 7)
  | 0x43 => some (pip, 8)
  | 0xc2 => some (mwait, 10)
  | 0xc3 => some (mnt, 11)
  | _ =>
    if opcode &&& 0x1f = 0x12 then
      some (ptw, if opcode &&& 0x60 = 0 then 6 else 10)
    else none

/-- An extended packet; `bytes` starts with the escape byte `02`. -/
def parseExtended (bytes : List UInt8) : Except PacketFault (Packet × Nat) :=
  match bytes with
  | _ :: opcode :: _ =>
    if opcode = 0x82 then
      match front 16 bytes with
      | .error e => .error e
      | .ok group =>
        if group = psbPattern then .ok (psb, 16) else .error (.unknownExtendedOpcode opcode)
    else if opcode = 0xa3 then
      match front 8 bytes with
      | .error e => .error e
      | .ok group =>
        let payload := LittleEndian.value (group.drop 2)
        if payload = 0 then .error .emptyTnt else .ok (tnt (branchBits payload), 8)
    else
      match extendedForm? opcode with
      | some (p, n) => fixed p n bytes
      | none => .error (.unknownExtendedOpcode opcode)
  | _ => .error .truncated

/-- The number of continuation bytes of a cycle counter: as long as bit 0 is
set, another byte follows. -/
def cycleTail : List UInt8 → Except PacketFault Nat
  | [] => .error .truncated
  | b :: rest =>
    if b &&& 1 = 0 then .ok 1
    else match cycleTail rest with
      | .ok n => .ok (n + 1)
      | .error e => .error e

/-- A packet that carries an instruction pointer. -/
def parseIp (header : UInt8) (bytes : List UInt8) : Except PacketFault (Packet × Nat) :=
  match ipKind? header with
  | none => .error (.unknownOpcode header)
  | some kind =>
    match ipForm? (header >>> 5) with
    | none => .error (.reservedIpBytes (header >>> 5))
    | some (n, payload) =>
      match front (n + 1) bytes with
      | .error e => .error e
      | .ok group => .ok (ip kind (payload (LittleEndian.value (group.drop 1)).toUInt64), n + 1)

/-- The packet at the front of a byte sequence and its length, or `none` if
there are no bytes. -/
def parse (bytes : List UInt8) : Except PacketFault (Option (Packet × Nat)) :=
  match bytes with
  | [] => .ok none
  | header :: rest =>
    some <$>
      if header = 0x00 then .ok (pad, 1)
      else if header = 0x02 then parseExtended bytes
      else if header &&& 1 = 0 then .ok (tnt (branchBits (header >>> 1).toNat), 1)
      else if header &&& 3 = 3 then
        if header &&& 4 = 0 then .ok (cyc, 1)
        else match cycleTail rest with
          | .ok n => .ok (cyc, n + 1)
          | .error e => .error e
      else if header = 0x19 then fixed tsc 8 bytes
      else if header = 0x59 then fixed mtc 2 bytes
      else if header = 0x99 then
        match rest with
        | [] => .error .truncated
        | payload :: _ =>
          .ok (if payload >>> 5 = 0 then execMode (modeOf payload) else transaction, 2)
      else parseIp header bytes

theorem front_length {n : Nat} {bytes group : List UInt8} (h : front n bytes = .ok group) :
    n ≤ bytes.length := by
  unfold front at h
  split at h
  next hn => rw [List.length_take] at hn; omega
  next => cases h

theorem fixed_length {p q : Packet} {n k : Nat} {bytes : List UInt8}
    (h : fixed p n bytes = .ok (q, k)) : k = n ∧ n ≤ bytes.length := by
  unfold fixed at h
  split at h
  next hn => rw [List.length_take] at hn; cases h; exact ⟨rfl, by omega⟩
  next => cases h

theorem extendedForm?_pos {opcode : UInt8} {p : Packet} {n : Nat}
    (h : extendedForm? opcode = some (p, n)) : 0 < n := by
  unfold extendedForm? at h
  split at h
  case h_14 =>
    split at h
    next => cases h; split <;> decide
    next => cases h
  all_goals cases h; decide

theorem parseExtended_length {bytes : List UInt8} {p : Packet} {n : Nat}
    (h : parseExtended bytes = .ok (p, n)) : 0 < n ∧ n ≤ bytes.length := by
  unfold parseExtended at h
  split at h
  next _ opcode _ =>
    split at h
    next =>
      split at h
      next => cases h
      next hg =>
        split at h
        next => cases h; exact ⟨by decide, front_length hg⟩
        next => cases h
    next =>
      split at h
      next =>
        split at h
        next => cases h
        next hg =>
          simp only at h
          split at h
          next => cases h
          next => cases h; exact ⟨by decide, front_length hg⟩
      next =>
        split at h
        next hf =>
          obtain ⟨rfl, hk⟩ := fixed_length h
          exact ⟨extendedForm?_pos hf, hk⟩
        next => cases h
  next => cases h

theorem cycleTail_length {bytes : List UInt8} {n : Nat} (h : cycleTail bytes = .ok n) :
    n ≤ bytes.length := by
  induction bytes generalizing n with
  | nil => cases h
  | cons b rest ih =>
    unfold cycleTail at h
    split at h
    next => cases h; simp
    next =>
      split at h
      next hk => cases h; simpa using ih hk
      next => cases h

theorem parseIp_length {header : UInt8} {bytes : List UInt8} {p : Packet} {n : Nat}
    (h : parseIp header bytes = .ok (p, n)) : 0 < n ∧ n ≤ bytes.length := by
  unfold parseIp at h
  split at h
  next => cases h
  next =>
    split at h
    next => cases h
    next =>
      split at h
      next => cases h
      next hg => cases h; exact ⟨Nat.succ_pos _, front_length hg⟩

/-- A packet takes at least one byte, and no more than there are. -/
theorem parse_length {bytes : List UInt8} {p : Packet} {n : Nat}
    (h : parse bytes = .ok (some (p, n))) : 0 < n ∧ n ≤ bytes.length := by
  match bytes, h with
  | header :: rest, h =>
    unfold parse at h
    simp only at h
    generalize hr : (ite (header = 0x00) _ _ : Except PacketFault (Packet × Nat)) = r at h
    match r, h with
    | .ok (q, k), h =>
      cases h
      split at hr
      next => cases hr; simp
      next =>
      split at hr
      next => exact parseExtended_length hr
      next =>
      split at hr
      next => cases hr; simp
      next =>
      split at hr
      next =>
        split at hr
        next => cases hr; simp
        next =>
          split at hr
          next hk => cases hr; simpa using cycleTail_length hk
          next => cases hr
      next =>
      split at hr
      next => obtain ⟨rfl, hk⟩ := fixed_length hr; exact ⟨by decide, hk⟩
      next =>
      split at hr
      next => obtain ⟨rfl, hk⟩ := fixed_length hr; exact ⟨by decide, hk⟩
      next =>
      split at hr
      next =>
        split at hr
        next => cases hr
        next => cases hr; simp
      next => exact parseIp_length hr

theorem parse_length_pos {bytes : List UInt8} {p : Packet} {n : Nat}
    (h : parse bytes = .ok (some (p, n))) : 0 < n :=
  (parse_length h).1

theorem parse_length_le {bytes : List UInt8} {p : Packet} {n : Nat}
    (h : parse bytes = .ok (some (p, n))) : n ≤ bytes.length :=
  (parse_length h).2

end Packet

/-- The offset of the first synchronisation pattern in `bytes`, whose own
offset is `offset`. -/
def findPsb (offset : Nat) : List UInt8 → Option Nat
  | [] => none
  | b :: rest =>
    if Packet.psbPattern.isPrefixOf (b :: rest) then some offset
    else findPsb (offset + 1) rest

end BranchWatch
