/-!
# Numbers with the lowest byte first

`value` reads a number from bytes and `bytes` writes one.  What is written in a
given number of bytes reads back modulo the power of 256 that fits
(`value_bytes`).
-/

namespace BranchWatch.LittleEndian

/-- The number that a byte sequence stands for. -/
def value : List UInt8 → Nat
  | [] => 0
  | b :: rest => b.toNat + 256 * value rest

/-- A sequence of `n` bytes stands for a number below `256 ^ n`. -/
theorem value_lt (bytes : List UInt8) : value bytes < Nat.pow 256 bytes.length := by
  induction bytes with
  | nil => exact Nat.one_pos
  | cons b rest ih =>
    have hb := b.toNat_lt
    simp only [value, List.length_cons, Nat.pow_eq, Nat.pow_succ] at ih ⊢
    omega

/-- The lowest bytes of a number. -/
def bytes : Nat → Nat → List UInt8
  | 0, _ => []
  | count + 1, n => (n % 256).toUInt8 :: bytes count (n / 256)

theorem value_bytes (count n : Nat) : value (bytes count n) = n % Nat.pow 256 count := by
  induction count generalizing n with
  | zero => exact (Nat.mod_one n).symm
  | succ count ih =>
    have hlow : (n % 256).toUInt8.toNat = n % 256 :=
      UInt8.toNat_ofNat_of_lt (Nat.mod_lt n (by decide))
    have hpow : Nat.pow 256 (count + 1) = 256 * Nat.pow 256 count := Nat.mul_comm _ _
    rw [bytes, value, ih, hlow, hpow]
    exact Nat.mod_mul.symm

end BranchWatch.LittleEndian
