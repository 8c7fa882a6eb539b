import BranchWatch.Packet.Name
import BranchWatch.Packet.Parse
import Mathlib.Data.List.Induction

/-!
# Writing packets

What the processor sends for a run of branch outcomes and for an address: short and long outcome
packets, and packets that carry an address in any of the forms in which it can be sent.  Each reads
back as the packet that was meant, whatever bytes follow (`parse_shortTnt`, `parse_longTnt`,
`parse_ipBytes`), and a compressed address as itself, if the form fits (`IpForm.apply_payload`).
-/

namespace BranchWatch

theorem LittleEndian.length_bytes (count n : Nat) : (bytes count n).length = count := by
  induction count generalizing n with
  | zero => rfl
  | succ count ih => exact congrArg (· + 1) (ih _)

namespace Packet

variable {taken : List Bool}

/-! ## Outcomes -/

/-- The payload that stands for branch outcomes: a set bit, then the outcomes, oldest first. -/
def tntPayload (taken : List Bool) : Nat :=
  outcomeNumber (true :: taken)

/-- An outcome packet of one byte. -/
def shortTnt (taken : List Bool) : List UInt8 :=
  [(2 * tntPayload taken).toUInt8]

/-- An outcome packet of eight bytes. -/
def longTnt (taken : List Bool) : List UInt8 :=
  0x02 :: 0xa3 :: LittleEndian.bytes 6 (tntPayload taken)

theorem length_longTnt (taken : List Bool) : (longTnt taken).length = 8 := by
  rw [longTnt, List.length_cons, List.length_cons, LittleEndian.length_bytes]

theorem tntPayload_concat (taken : List Bool) (b : Bool) :
    tntPayload (taken ++ [b]) = 2 * tntPayload taken + b.toNat :=
  List.foldl_append

theorem tntPayload_bounds (taken : List Bool) :
    Nat.pow 2 taken.length ≤ tntPayload taken ∧
      tntPayload taken < Nat.pow 2 (taken.length + 1) := by
  have hdouble (n : Nat) : Nat.pow 2 (n + 1) = Nat.pow 2 n * 2 := rfl
  induction taken using List.reverseRecOn with
  | nil => decide
  | append_singleton taken b ih =>
      have hb := b.toNat_le
      rw [tntPayload_concat, List.length_append, List.length_singleton]
      simp only [hdouble] at ih ⊢
      omega

theorem tntPayload_pos (taken : List Bool) : 0 < tntPayload taken :=
  Nat.lt_of_lt_of_le (Nat.two_pow_pos _) (tntPayload_bounds taken).1

/-- The lowest bit of a payload is the latest outcome. -/
theorem branchBits_bit {m : Nat} (hm : 0 < m) (b : Bool) :
    branchBits (2 * m + b.toNat) = branchBits m ++ [b] := by
  have hb := b.toNat_le
  have hlog : (2 * m + b.toNat).log2 = m.log2 + 1 := by
    obtain ⟨hlow, hhigh⟩ := (Nat.log2_eq_iff (Nat.ne_of_gt hm)).1 rfl
    rw [Nat.log2_eq_iff (by omega)]
    rw [Nat.pow_succ] at hhigh ⊢
    rw [Nat.pow_succ, Nat.pow_succ]
    omega
  have hzero : (2 * m + b.toNat).testBit 0 = b := by
    rw [Nat.testBit_zero]
    cases b <;> simp
  have hsucc (i : Nat) : (2 * m + b.toNat).testBit (i + 1) = m.testBit i := by
    rw [Nat.testBit_add_one]
    congr 1
    omega
  -- The bits are listed from the highest one down, so the lowest bit comes last.
  unfold branchBits
  rw [hlog, List.range_succ_eq_map, List.reverse_cons, List.map_append, ← List.map_reverse,
    List.map_map]
  simp only [List.map_cons, List.map_nil, hzero]
  congr 1
  exact List.map_congr_left fun i _ => hsucc i

/-- The payload reads back as the outcomes. -/
theorem branchBits_tntPayload (taken : List Bool) : branchBits (tntPayload taken) = taken := by
  induction taken using List.reverseRecOn with
  | nil => decide
  | append_singleton taken b ih =>
      rw [tntPayload_concat, branchBits_bit (tntPayload_pos taken), ih]

theorem parse_shortTnt (hne : taken ≠ []) (hlen : taken.length ≤ 6) (rest : List UInt8) :
    parse (shortTnt taken ++ rest) = .ok (some (tnt taken, 1)) := by
  obtain ⟨hlow, hhigh⟩ := tntPayload_bounds taken
  have hpos := List.length_pos_iff.2 hne
  have htwo : 2 ≤ tntPayload taken :=
    Nat.le_trans (Nat.pow_le_pow_right (Nat.two_pos) hpos) hlow
  have hmax : tntPayload taken < 128 :=
    Nat.lt_of_lt_of_le hhigh (Nat.pow_le_pow_right (by decide) (by omega : taken.length + 1 ≤ 7))
  have hheader : (2 * tntPayload taken).toUInt8.toNat = 2 * tntPayload taken :=
    UInt8.toNat_ofNat_of_lt (by omega : 2 * tntPayload taken < 256)
  -- No header of an outcome packet has another meaning: it is even, and neither 0 nor 2.
  have hpad : (2 * tntPayload taken).toUInt8 ≠ 0x00 := by
    intro h
    have h := congrArg UInt8.toNat h
    rw [hheader] at h
    have hzero : (0x00 : UInt8).toNat = 0 := rfl
    omega
  have hextended : (2 * tntPayload taken).toUInt8 ≠ 0x02 := by
    intro h
    have h := congrArg UInt8.toNat h
    rw [hheader] at h
    have htwo : (0x02 : UInt8).toNat = 2 := rfl
    omega
  have heven : (2 * tntPayload taken).toUInt8 &&& 1 = 0 := by
    have hone : (1 : UInt8).toNat = 1 := rfl
    have hzero : (0 : UInt8).toNat = 0 := rfl
    apply UInt8.toNat_inj.1
    rw [UInt8.toNat_and, hheader, hone, hzero, Nat.and_one_is_mod]
    omega
  have hpayload : ((2 * tntPayload taken).toUInt8 >>> 1).toNat = tntPayload taken := by
    have hone : (1 : UInt8).toNat % 8 = 1 := rfl
    rw [UInt8.toNat_shiftRight, hheader, hone, Nat.shiftRight_eq_div_pow]
    omega
  unfold shortTnt parse
  simp only [List.cons_append, if_neg hpad, if_neg hextended, if_pos heven, hpayload,
    branchBits_tntPayload]
  rfl

theorem front_append {n : Nat} {group : List UInt8} (h : group.length = n) (rest : List UInt8) :
    front n (group ++ rest) = .ok group := by
  unfold front
  rw [List.take_left' h, if_pos h]

theorem parse_escape (bytes : List UInt8) :
    parse (0x02 :: bytes) = some <$> parseExtended (0x02 :: bytes) := rfl

theorem parseExtended_longTnt (bytes : List UInt8) :
    parseExtended (0x02 :: 0xa3 :: bytes) = match front 8 (0x02 :: 0xa3 :: bytes) with
      | .error e => .error e
      | .ok group =>
        let payload := LittleEndian.value (group.drop 2)
        if payload = 0 then .error .emptyTnt else .ok (tnt (branchBits payload), 8) := rfl

theorem parse_longTnt (hlen : taken.length ≤ 47) (rest : List UInt8) :
    parse (longTnt taken ++ rest) = .ok (some (tnt taken, 8)) := by
  have hpow : Nat.pow 256 6 = 2 ^ 48 := by decide
  have hmax : tntPayload taken < Nat.pow 256 6 := by
    rw [hpow]
    exact Nat.lt_of_lt_of_le (tntPayload_bounds taken).2
      (Nat.pow_le_pow_right Nat.two_pos (by omega : taken.length + 1 ≤ 48))
  have hvalue : LittleEndian.value (LittleEndian.bytes 6 (tntPayload taken)) =
      tntPayload taken := by
    rw [LittleEndian.value_bytes]
    exact Nat.mod_eq_of_lt hmax
  have hextended : parseExtended (longTnt taken ++ rest) = .ok (tnt taken, 8) := by
    rw [longTnt, List.cons_append, List.cons_append, parseExtended_longTnt, ← List.cons_append,
      ← List.cons_append, ← longTnt, front_append (length_longTnt taken)]
    simp only [longTnt, List.drop_succ_cons, List.drop_zero, hvalue,
      if_neg (Nat.ne_of_gt (tntPayload_pos taken)), branchBits_tntPayload]
  have hparse : parse (longTnt taken ++ rest) = some <$> parseExtended (longTnt taken ++ rest) :=
    parse_escape _
  rw [hparse, hextended]
  rfl

end Packet

/-! ## Addresses -/

/-- The forms in which an address can be sent. -/
inductive IpForm where
  | update16
  | update32
  | sext48
  | update48
  | full
  deriving DecidableEq, Repr

namespace IpForm

/-- The number of the form in a header. -/
def code : IpForm → UInt8
  | update16 => 1
  | update32 => 2
  | sext48 => 3
  | update48 => 4
  | full => 6

/-- How many bytes of the address are sent. -/
def width : IpForm → Nat
  | update16 => 2
  | update32 => 4
  | sext48 => 6
  | update48 => 6
  | full => 8

def payload : IpForm → UInt64 → IpPayload
  | update16 => .update16
  | update32 => .update32
  | sext48 => .sext48
  | update48 => .update48
  | full => .full

/-- The form can stand for the address `ip` after the address `last`: the bits that are not sent are
those of `last`, or repeat the highest one that is sent. -/
def Fits (last ip : UInt64) : IpForm → Prop
  | update16 => ip >>> 16 = last >>> 16
  | update32 => ip >>> 32 = last >>> 32
  | sext48 => ip >>> 47 = 0 ∨ ip >>> 47 = 0x1ffff
  | update48 => ip >>> 48 = last >>> 48
  | full => True

/-- The part of an address that is sent. -/
def sent (form : IpForm) (ip : UInt64) : UInt64 :=
  (ip.toNat % Nat.pow 256 form.width).toUInt64

/-- Upper bits of one number and lower bits of another are those of the second one, if the upper
bits agree. -/
theorem and_or_mod {last ip mask : UInt64} {k : Nat} (hk : k < 64)
    (hmask : mask.toNat = Nat.pow 2 k * (Nat.pow 2 (64 - k) - 1))
    (h : ip.toNat >>> k = last.toNat >>> k) :
    (last &&& mask) ||| (ip.toNat % Nat.pow 2 k).toUInt64 = ip := by
  have hpow (n : Nat) : Nat.pow 2 n = 2 ^ n := rfl
  rw [hpow, hpow] at hmask
  rw [hpow]
  apply UInt64.toNat_inj.1
  have hlow : (ip.toNat % 2 ^ k).toUInt64.toNat = ip.toNat % 2 ^ k :=
    UInt64.toNat_ofNat_of_lt' (Nat.lt_of_le_of_lt (Nat.mod_le _ _) ip.toNat_lt)
  rw [UInt64.toNat_or, UInt64.toNat_and, hlow, hmask]
  -- Bits below `k` are sent, those above are the same in both addresses.
  apply Nat.eq_of_testBit_eq
  intro i
  rw [Nat.testBit_or, Nat.testBit_and, Nat.testBit_mod_two_pow, Nat.testBit_two_pow_mul,
    Nat.testBit_two_pow_sub_one]
  by_cases hi : i < k
  · have hge : ¬ k ≤ i := by omega
    simp [hi, hge]
  · obtain ⟨j, rfl⟩ := Nat.exists_eq_add_of_le (Nat.not_lt.1 hi)
    have hbit : ip.toNat.testBit (k + j) = last.toNat.testBit (k + j) := by
      rw [← Nat.testBit_shiftRight, h, Nat.testBit_shiftRight]
    by_cases hj : j < 64 - k
    · simp [hi, hj, hbit]
    · have hzero : ip.toNat.testBit (k + j) = false :=
        Nat.testBit_lt_two_pow (Nat.lt_of_lt_of_le ip.toNat_lt
          (Nat.pow_le_pow_right Nat.two_pos (by omega)))
      simp [hi, hj, hzero]

/-- An address whose upper bits repeat bit 47 is restored from its lower 48 bits. -/
theorem sext48_eq {value ip : UInt64} (hvalue : value.toNat = ip.toNat % Nat.pow 2 48)
    (h : ip >>> 47 = 0 ∨ ip >>> 47 = 0x1ffff) : ((value <<< 16).toInt64 >>> 16).toUInt64 = ip := by
  -- Bit 47 and the 16 bits above it are all alike in the address, as they are in what is restored.
  have htop (j : Nat) (hj : j < 17) : ip.toBitVec.getLsbD (47 + j) = ip.toBitVec.getLsbD 47 := by
    have hget (i : Nat) : ip.toBitVec.getLsbD (47 + i) = (ip >>> 47).toBitVec.getLsbD i := by
      rw [UInt64.toBitVec_shiftRight]
      exact (BitVec.getLsbD_ushiftRight ..).symm
    rw [hget j, show ip.toBitVec.getLsbD 47 = _ from hget 0]
    rcases h with h | h
    · rw [h]
      simp
    · rw [h]
      revert j
      decide
  have hlow (i : Nat) (hi : i < 48) : value.toBitVec.getLsbD i = ip.toBitVec.getLsbD i := by
    have hpow : Nat.pow 2 48 = 2 ^ 48 := rfl
    show value.toNat.testBit i = ip.toNat.testBit i
    rw [hvalue, hpow, Nat.testBit_mod_two_pow]
    simp [hi]
  apply UInt64.toBitVec_inj.1
  apply BitVec.eq_of_getLsbD_eq
  intro i hi
  have hshift : ((value <<< 16).toInt64 >>> 16).toUInt64.toBitVec =
      (value.toBitVec <<< 16).sshiftRight 16 := rfl
  rw [hshift, BitVec.getLsbD_sshiftRight]
  by_cases hlt : i < 48
  · have hback : (value.toBitVec <<< 16).getLsbD (16 + i) = value.toBitVec.getLsbD i := by
      have hsub : 16 + i - 16 = i := Nat.add_sub_cancel_left 16 i
      rw [BitVec.getLsbD_shiftLeft, hsub]
      simp only [show 16 + i < 64 by omega, show ¬ 16 + i < 16 by omega, decide_true,
        decide_false, Bool.not_false, Bool.true_and]
    rw [if_pos (by omega), hback, hlow i hlt]
    simp only [show ¬ 64 ≤ i by omega, decide_false, Bool.not_false, Bool.true_and]
  · obtain ⟨j, rfl⟩ := Nat.exists_eq_add_of_le (show 47 ≤ i by omega)
    have hmsb : (value.toBitVec <<< 16).msb = ip.toBitVec.getLsbD 47 := by
      rw [BitVec.msb_eq_getLsbD_last, ← hlow 47 (by decide)]
      simp
    rw [htop j (by omega), hmsb]
    simp [show ¬ 64 ≤ 47 + j by omega, show ¬ 16 + (47 + j) < 64 by omega]

/-- A form that fits gives the address back. -/
theorem apply_payload {form : IpForm} {last ip : UInt64} (h : form.Fits last ip) :
    (form.payload (form.sent ip)).apply last = some ip := by
  cases form with
  | update16 =>
      have h := congrArg UInt64.toNat h
      rw [UInt64.toNat_shiftRight, UInt64.toNat_shiftRight] at h
      exact congrArg some (and_or_mod (k := 16) (by decide) (by decide) h)
  | update32 =>
      have h := congrArg UInt64.toNat h
      rw [UInt64.toNat_shiftRight, UInt64.toNat_shiftRight] at h
      exact congrArg some (and_or_mod (k := 32) (by decide) (by decide) h)
  | sext48 =>
      have hvalue : (sent sext48 ip).toNat = ip.toNat % Nat.pow 2 48 :=
        UInt64.toNat_ofNat_of_lt' (Nat.lt_of_le_of_lt (Nat.mod_le _ _) ip.toNat_lt)
      exact congrArg some (sext48_eq hvalue h)
  | update48 =>
      have h := congrArg UInt64.toNat h
      rw [UInt64.toNat_shiftRight, UInt64.toNat_shiftRight] at h
      exact congrArg some (and_or_mod (k := 48) (by decide) (by decide) h)
  | full =>
      have hlt : ip.toNat < Nat.pow 256 8 := ip.toNat_lt
      have hmod : ip.toNat % Nat.pow 256 8 = ip.toNat := Nat.mod_eq_of_lt hlt
      show some (ip.toNat % Nat.pow 256 8).toUInt64 = some ip
      rw [hmod]
      exact congrArg some ip.ofNat_toNat

end IpForm

namespace Packet

/-- The low bits of a header of an address packet. -/
def ipOpcode : IpKind → UInt8
  | .tip => 0x0d
  | .pge => 0x11
  | .pgd => 0x01
  | .fup => 0x1d

/-- A packet that carries an address. -/
def ipBytes (kind : IpKind) (form : IpForm) (ip : UInt64) : List UInt8 :=
  (form.code <<< 5 ||| ipOpcode kind) :: LittleEndian.bytes form.width ip.toNat

theorem length_ipBytes (kind : IpKind) (form : IpForm) (ip : UInt64) :
    (ipBytes kind form ip).length = form.width + 1 := by
  rw [ipBytes, List.length_cons, LittleEndian.length_bytes]

/-- A header of an address packet is none of any other packet. -/
theorem parse_of_ipHeader {header : UInt8} {bytes : List UInt8}
    (h : header ≠ 0x00 ∧ header ≠ 0x02 ∧ header &&& 1 ≠ 0 ∧ header &&& 3 ≠ 3 ∧ header ≠ 0x19 ∧
      header ≠ 0x59 ∧ header ≠ 0x99) :
    parse (header :: bytes) = some <$> parseIp header (header :: bytes) := by
  obtain ⟨hpad, hextended, htnt, hcyc, htsc, hmtc, hmode⟩ := h
  unfold parse
  simp only [if_neg hpad, if_neg hextended, if_neg htnt, if_neg hcyc, if_neg htsc, if_neg hmtc,
    if_neg hmode]

theorem parse_ipBytes (kind : IpKind) (form : IpForm) (address : UInt64) (rest : List UInt8) :
    parse (ipBytes kind form address ++ rest) =
      .ok (some (.ip kind (form.payload (form.sent address)), form.width + 1)) := by
  have hkind : ipKind? (form.code <<< 5 ||| ipOpcode kind) = some kind := by
    cases kind <;> cases form <;> rfl
  have hform : ipForm? ((form.code <<< 5 ||| ipOpcode kind) >>> 5) =
      some (form.width, form.payload) := by
    cases kind <;> cases form <;> rfl
  have hip : parseIp (form.code <<< 5 ||| ipOpcode kind) (ipBytes kind form address ++ rest) =
      .ok (.ip kind (form.payload (form.sent address)), form.width + 1) := by
    unfold parseIp
    rw [hkind]
    simp only [hform, front_append (length_ipBytes kind form address)]
    simp only [ipBytes, List.drop_succ_cons, List.drop_zero, LittleEndian.value_bytes]
    rfl
  rw [ipBytes, List.cons_append, parse_of_ipHeader ?_, ← List.cons_append, ← ipBytes, hip]
  · rfl
  · cases kind <;> cases form <;> decide

end Packet

end BranchWatch
