import BranchWatch.Capture.Span
import Mathlib.Algebra.Group.Nat.Defs

/-!
# The bytes of a span

`Span.locate` finds as many bytes as were written, but no more than one ring, and counted from
`consumed` on they stand in the ring one behind the other, modulo its size.  The counters run modulo
`2 ^ 64` and the places modulo the size of the ring, which need not divide it: the bytes are found
all the same (`Span.locate_in_ring`), because only the difference of the counters is taken and the
places are counted from the lower one.

The sums of `Span.locate` have no bound.  A machine takes them modulo `2 ^ 64`
(`Span.locateInWords`), which makes no difference for a ring of less than half of that
(`Span.locateInWords_eq`).
-/

namespace BranchWatch

namespace Span

variable {consumed head : UInt64} {size : Nat} {ring : Array UInt8}

/-- How many bytes are located. -/
def located (consumed head : UInt64) (size : Nat) : Nat := min (head - consumed).toNat size

theorem locate_of_located_eq_zero (h : located consumed head size = 0) :
    locate consumed head size = (empty, false) := by
  unfold located at h
  have hnone : (head - consumed).toNat = 0 ∨ size = 0 := by omega
  unfold locate
  rw [if_pos hnone]

/-- What is located stands in one piece, or wraps around the end of the ring once. -/
theorem locate_of_located_pos (h : 0 < located consumed head size) :
    locate consumed head size =
      (if consumed.toNat % size + located consumed head size ≤ size then
          direct (consumed.toNat % size) (located consumed head size)
        else
          wrapped (consumed.toNat % size) (size - consumed.toNat % size)
            (located consumed head size),
        decide (size ≤ (head - consumed).toNat)) := by
  unfold located at h ⊢
  have hsome : ¬((head - consumed).toNat = 0 ∨ size = 0) := by omega
  have hlength : (if decide (size ≤ (head - consumed).toNat) = true then size
      else (head - consumed).toNat) = min (head - consumed).toNat size := by
    split
    next hfull =>
      have := of_decide_eq_true hfull
      omega
    next hfull =>
      have : ¬size ≤ (head - consumed).toNat := fun h => hfull (decide_eq_true h)
      omega
  simp only [locate, if_neg hsome, hlength]
  split <;> rfl

/-- The ring is full if and only if as many bytes are located as it has. -/
theorem locate_full (hsize : 0 < size) : (locate consumed head size).2 =
    decide (located consumed head size = size) := by
  rcases Nat.eq_zero_or_pos (located consumed head size) with h | h
  · rw [locate_of_located_eq_zero h, h]
    exact (decide_eq_false (Nat.ne_of_lt hsize)).symm
  · rw [locate_of_located_pos h]
    refine decide_eq_decide.2 ?_
    unfold located
    omega

/-- A place of the ring, reached from the place of `consumed`. -/
theorem add_mod_cases {i : Nat} (hsize : 0 < size) (hi : i < size) (n : Nat) :
    (n + i) % size = if n % size + i < size then n % size + i else n % size + i - size := by
  have hn : n % size < size := Nat.mod_lt n hsize
  rw [← Nat.mod_add_mod]
  split
  next hless => exact Nat.mod_eq_of_lt hless
  next hless =>
    rw [Nat.mod_eq_sub_mod (Nat.le_of_not_lt hless)]
    exact Nat.mod_eq_of_lt (by omega)

/-- The bytes that are located, one by one. -/
theorem getElem?_bytes_locate (hring : ring.size = size) (i : Nat) :
    ((locate consumed head size).1.bytes ring)[i]? =
      if i < located consumed head size then ring[(consumed.toNat + i) % size]? else none := by
  rcases Nat.eq_zero_or_pos (located consumed head size) with h | h
  · rw [locate_of_located_eq_zero h, h]
    simp [bytes]
  · have hle : located consumed head size ≤ size := Nat.min_le_right _ _
    have hsize : 0 < size := Nat.lt_of_lt_of_le h hle
    have hstart : consumed.toNat % size < size := Nat.mod_lt _ hsize
    rw [locate_of_located_pos h]
    generalize located consumed head size = n at h hle ⊢
    have hplace (hi : i < n) := add_mod_cases hsize (Nat.lt_of_lt_of_le hi hle) consumed.toNat
    generalize consumed.toNat % size = start at hstart hplace ⊢
    split
    next hfits =>
      -- In one piece no place is behind the end of the ring.
      simp only [bytes, Array.getElem?_toList, Array.getElem?_extract, hring]
      by_cases hi : i < n
      · have hless : start + i < size := by omega
        rw [if_pos hi, hplace hi, if_pos hless, if_pos (by omega)]
      · rw [if_neg hi, if_neg (by omega)]
    next hwraps =>
      -- The first piece ends where the ring does, and the second one starts where the ring does.
      simp only [bytes, List.getElem?_append, Array.length_toList, Array.size_extract,
        Array.getElem?_toList, Array.getElem?_extract, hring]
      by_cases hi : i < n
      · rw [if_pos hi, hplace hi]
        by_cases hfirst : start + i < size
        · rw [if_pos hfirst, if_pos (by omega), if_pos (by omega)]
        · rw [if_neg hfirst, if_neg (by omega), if_pos (by omega)]
          congr 1
          omega
      · rw [if_neg hi, if_neg (by omega), if_neg (by omega)]

/-- As many bytes as are located. -/
theorem length_bytes_locate (hring : ring.size = size) :
    ((locate consumed head size).1.bytes ring).length = located consumed head size := by
  have hle : located consumed head size ≤ size := Nat.min_le_right _ _
  have hget (i : Nat) : ((locate consumed head size).1.bytes ring)[i]? =
      if i < located consumed head size then ring[(consumed.toNat + i) % size]? else none :=
    getElem?_bytes_locate hring i
  apply Nat.le_antisymm
  · rw [← List.getElem?_eq_none_iff, hget, if_neg (Nat.lt_irrefl _)]
  · refine Nat.le_of_not_lt fun hlt => ?_
    -- Behind the last byte there would be one that the ring has not.
    have hnone := List.getElem?_eq_none_iff.2
      (Nat.le_refl ((locate consumed head size).1.bytes ring).length)
    rw [hget, if_pos hlt, Array.getElem?_eq_none_iff, hring] at hnone
    exact absurd (Nat.mod_lt _ (by omega)) (Nat.not_lt.2 hnone)

/-! ## Inside the ring -/

/-- Nothing is located where no byte is. -/
theorem locate_eq_empty_iff :
    (locate consumed head size).1 = empty ↔ located consumed head size = 0 := by
  rcases Nat.eq_zero_or_pos (located consumed head size) with h | h
  · simp [locate_of_located_eq_zero h, h]
  · rw [locate_of_located_pos h]
    refine ⟨fun hempty => ?_, fun hzero => absurd hzero (Nat.ne_of_gt h)⟩
    simp only at hempty
    split at hempty <;> cases hempty

theorem located_pos_of_ne_empty (h : (locate consumed head size).1 ≠ empty) :
    0 < located consumed head size :=
  Nat.pos_of_ne_zero fun hzero => h (locate_eq_empty_iff.2 hzero)

/-- A window in one piece does not reach behind the end of the ring. -/
theorem le_size_of_locate_direct {start length : Nat}
    (h : (locate consumed head size).1 = direct start length) : start + length ≤ size := by
  have hpos : 0 < located consumed head size := located_pos_of_ne_empty (by rw [h]; nofun)
  rw [locate_of_located_pos hpos] at h
  simp only at h
  split at h
  next hfits =>
    cases h
    exact hfits
  next => cases h

/-- The first of two pieces ends where the ring does.  The second one, at the start of the ring,
ends in front of the first. -/
theorem bounds_of_locate_wrapped {start first length : Nat}
    (h : (locate consumed head size).1 = wrapped start first length) :
    start + first = size ∧ 0 < first ∧ first < length ∧ length ≤ size ∧
      length - first ≤ start := by
  have hpos : 0 < located consumed head size := located_pos_of_ne_empty (by rw [h]; nofun)
  have hle : located consumed head size ≤ size := Nat.min_le_right _ _
  have hstart : consumed.toNat % size < size := Nat.mod_lt _ (Nat.lt_of_lt_of_le hpos hle)
  rw [locate_of_located_pos hpos] at h
  simp only at h
  split at h
  next => cases h
  next hwraps =>
    cases h
    omega

/-- The ring is full if it has room and no more than was written. -/
theorem locate_full_iff : (locate consumed head size).2 = true ↔
    0 < size ∧ size ≤ (head - consumed).toNat := by
  rcases Nat.eq_zero_or_pos size with rfl | hsize
  · rw [locate_of_located_eq_zero (Nat.min_zero _)]
    simp
  · rw [locate_full hsize, decide_eq_true_iff]
    unfold located
    omega

/-! ## Machine words -/

/-- The place of the bytes, with all sums taken modulo `2 ^ 64`. -/
def locateInWords (consumed head size : UInt64) : Span × Bool :=
  let available := head - consumed
  if available = 0 ∨ size = 0 then (empty, false)
  else
    let full : Bool := size ≤ available
    let length := if full then size else available
    let start := consumed % size
    if start + length ≤ size then (direct start.toNat length.toNat, full)
    else (wrapped start.toNat (size - start).toNat length.toNat, full)

/-- No sum is cut: each is less than twice the size of the ring. -/
theorem locateInWords_eq (consumed head : UInt64) (hsize : size < 2 ^ 63) :
    locateInWords consumed head size.toUInt64 = locate consumed head size := by
  have hword : size.toUInt64.toNat = size :=
    UInt64.toNat_ofNat_of_lt' (Nat.lt_trans hsize (by decide))
  generalize size.toUInt64 = s at hword
  subst hword
  have hzero : s = 0 ↔ s.toNat = 0 := UInt64.toNat_inj.symm
  have hnone : head - consumed = 0 ↔ (head - consumed).toNat = 0 := UInt64.toNat_inj.symm
  unfold locateInWords locate
  simp only [hzero, hnone, UInt64.le_iff_toNat_le]
  split
  next => rfl
  next hsome =>
    have hstart : (consumed % s).toNat = consumed.toNat % s.toNat := UInt64.toNat_mod ..
    have hlt : consumed.toNat % s.toNat < s.toNat := Nat.mod_lt _ (by omega)
    generalize hchosen : (if decide (s.toNat ≤ (head - consumed).toNat) = true then s
      else head - consumed) = length
    have hlength : (if decide (s.toNat ≤ (head - consumed).toNat) = true then s.toNat
        else (head - consumed).toNat) = length.toNat := by
      rw [← hchosen]
      split <;> rfl
    have hle : length.toNat ≤ s.toNat := by
      rw [← hlength]
      split
      next => omega
      next hless =>
        have := of_decide_eq_false (eq_false_of_ne_true hless)
        omega
    have hsum : (consumed % s + length).toNat = consumed.toNat % s.toNat + length.toNat := by
      rw [UInt64.toNat_add, hstart]
      exact Nat.mod_eq_of_lt (by omega)
    have hfirst : (s - consumed % s).toNat = s.toNat - consumed.toNat % s.toNat := by
      rw [UInt64.toNat_sub_of_le _ _ (UInt64.le_iff_toNat_le.2 (by omega)), hstart]
    rw [hlength, hsum, hstart, hfirst]

/-- **The right bytes are located, inside the ring.**  `available` bytes were written, and `n` of
them are located.  Whatever the counters are, the pieces lie in the ring and apart, and the byte
number `i` is the one at the place of `consumed + i`, where the sum is not cut.  In a ring of a size
that a machine can have, words are enough to find them. -/
theorem locate_in_ring (consumed head : UInt64) (hsize : size < 2 ^ 62) :
    let available := (head - consumed).toNat
    let n := min available size
    let span := (locate consumed head size).1
    (span = empty ↔ n = 0) ∧
      ((locate consumed head size).2 = true ↔ 0 < size ∧ size ≤ available) ∧
      (∀ start length, span = direct start length → start + length ≤ size) ∧
      (∀ start first length, span = wrapped start first length →
        start + first = size ∧ 0 < first ∧ first < length ∧ length ≤ size ∧
          length - first ≤ start) ∧
      (∀ ring : Array UInt8, ring.size = size → (span.bytes ring).length = n ∧
        ∀ i < n, (span.bytes ring)[i]? = ring[(consumed.toNat + i) % size]?) ∧
      locateInWords consumed head size.toUInt64 = locate consumed head size := by
  intro available n span
  refine ⟨locate_eq_empty_iff, locate_full_iff, fun _ _ => le_size_of_locate_direct,
    fun _ _ _ => bounds_of_locate_wrapped, fun ring hring => ⟨length_bytes_locate hring, ?_⟩,
    locateInWords_eq consumed head (Nat.lt_trans hsize (by decide))⟩
  intro i hi
  exact (getElem?_bytes_locate hring i).trans (if_pos hi)

/-- The counters pass `2 ^ 64`, in a ring of a size that does not divide it, and more was written
than the ring holds. -/
theorem locate_in_ring_of_counters_around :
    25 < 2 ^ 62 ∧ locate 0xfffffffffffffff6 20 25 = (wrapped 6 19 25, true) ∧
      ∀ ring : Array UInt8, ring.size = 25 →
        ((wrapped 6 19 25).bytes ring).length = 25 ∧
          ((wrapped 6 19 25).bytes ring)[20]? = ring[1]? := by
  have hsize : 25 < 2 ^ 62 := by decide
  have hplace : locate 0xfffffffffffffff6 20 25 = (wrapped 6 19 25, true) := by decide
  obtain ⟨-, -, -, -, hbytes, -⟩ := locate_in_ring 0xfffffffffffffff6 20 hsize
  refine ⟨hsize, hplace, fun ring hring => ?_⟩
  rw [hplace] at hbytes
  obtain ⟨hlength, hget⟩ := hbytes ring hring
  exact ⟨hlength, hget 20 (by decide)⟩

end Span

end BranchWatch
