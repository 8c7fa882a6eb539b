import BranchWatch.Packet.Reader

/-!
# Synchronisation points

Where the search for a synchronisation pattern succeeds, the whole pattern is there, so the packet
in front of that place is a synchronisation packet (`peek_of_findPsb`).  A walk that goes on at such
a place can always read its first packet.

The search gives the first place where the pattern stands (`findPsb_eq_some_iff`), and it fails only
where there is none (`findPsb_eq_none_iff`).  What lies in front of the bytes that are searched only
shifts the place (`findPsb_add`), and what follows the place that is found does not matter
(`findPsb_append_of_some`).
-/

namespace BranchWatch

open Packet

/-- The pattern reads as a synchronisation packet, whatever follows it. -/
theorem Packet.parse_psbPattern (rest : List UInt8) :
    parse (psbPattern ++ rest) = .ok (some (psb, 16)) := rfl

/-- The end of a group of status packets. -/
theorem Packet.parse_psbEnd (rest : List UInt8) :
    parse ([0x02, 0x23] ++ rest) = .ok (some (psbEnd, 2)) := rfl

/-- A pattern in front is the first one. -/
theorem findPsb_append (offset : Nat) (rest : List UInt8) :
    findPsb offset (psbPattern ++ rest) = some offset := by
  have hpre : psbPattern.isPrefixOf (psbPattern ++ rest) = true :=
    List.isPrefixOf_iff_prefix.2 (List.prefix_append _ _)
  have hcons : psbPattern ++ rest = 0x02 :: (psbPattern.tail ++ rest) := rfl
  rw [hcons] at hpre ⊢
  unfold findPsb
  rw [if_pos hpre]

theorem findPsb_le {offset place : Nat} {bytes : List UInt8}
    (h : findPsb offset bytes = some place) : offset ≤ place := by
  induction bytes generalizing offset with
  | nil => cases h
  | cons b rest ih =>
      unfold findPsb at h
      split at h
      next => cases h; exact Nat.le_refl _
      next => exact Nat.le_of_succ_le (ih h)

/-- The pattern starts at the place that is found. -/
theorem isPrefix_of_findPsb {offset place : Nat} {bytes : List UInt8}
    (h : findPsb offset bytes = some place) : psbPattern <+: bytes.drop (place - offset) := by
  induction bytes generalizing offset with
  | nil => cases h
  | cons b rest ih =>
      have hle := findPsb_le h
      unfold findPsb at h
      split at h
      next hpre =>
        cases h
        rw [Nat.sub_self]
        exact List.isPrefixOf_iff_prefix.1 hpre
      next =>
        have hlt := findPsb_le h
        rw [show place - offset = place - (offset + 1) + 1 by omega, List.drop_succ_cons]
        exact ih h

/-- The pattern stands at the offset `place` of a buffer. -/
def PsbAt (buffer : List UInt8) (place : Nat) : Prop := psbPattern <+: buffer.drop place

/-- The first place from the offset `origin` on where the pattern stands. -/
structure FirstPsb (buffer : List UInt8) (origin place : Nat) : Prop where
  le : origin ≤ place
  psbAt : PsbAt buffer place
  first : ∀ q, origin ≤ q → q < place → ¬ PsbAt buffer q

/-- Nothing that is passed over is a pattern. -/
theorem not_isPrefix_of_findPsb {offset q : Nat} {bytes : List UInt8} (hq : offset ≤ q)
    (h : ∀ place ≤ q, findPsb offset bytes ≠ some place) :
    ¬ psbPattern <+: bytes.drop (q - offset) := by
  induction bytes generalizing offset with
  | nil =>
      rw [List.drop_nil, List.prefix_nil]
      exact List.cons_ne_nil _ _
  | cons b rest ih =>
      unfold findPsb at h
      split at h
      next => exact absurd rfl (h offset hq)
      next hpre =>
        rcases Nat.eq_or_lt_of_le hq with rfl | hlt
        · rw [Nat.sub_self]
          exact fun hp => hpre (List.isPrefixOf_iff_prefix.2 hp)
        · rw [show q - offset = q - (offset + 1) + 1 by omega, List.drop_succ_cons]
          exact ih hlt h

section

variable {buffer : List UInt8} {offset place : Nat}

theorem psbAt_of_findPsb (h : findPsb offset (buffer.drop offset) = some place) :
    PsbAt buffer place := by
  have hpre := isPrefix_of_findPsb h
  rwa [List.drop_drop, Nat.add_sub_cancel' (findPsb_le h)] at hpre

theorem not_psbAt_of_findPsb {q : Nat} (hq : offset ≤ q)
    (h : ∀ place ≤ q, findPsb offset (buffer.drop offset) ≠ some place) : ¬ PsbAt buffer q := by
  have hnot := not_isPrefix_of_findPsb hq h
  rwa [List.drop_drop, Nat.add_sub_cancel' hq] at hnot

theorem findPsb_eq_none_iff :
    findPsb offset (buffer.drop offset) = none ↔ ∀ q ≥ offset, ¬ PsbAt buffer q := by
  constructor
  · intro h q hq
    exact not_psbAt_of_findPsb hq (by rw [h]; nofun)
  · intro h
    rcases hfind : findPsb offset (buffer.drop offset) with _ | place
    · rfl
    · exact absurd (psbAt_of_findPsb hfind) (h place (findPsb_le hfind))

theorem firstPsb_of_findPsb (h : findPsb offset (buffer.drop offset) = some place) :
    FirstPsb buffer offset place := by
  refine ⟨findPsb_le h, psbAt_of_findPsb h, fun q hq hlt => not_psbAt_of_findPsb hq ?_⟩
  intro other hother hfind
  rw [h] at hfind
  cases hfind
  omega

/-- There is only one first place. -/
theorem FirstPsb.unique {other : Nat} (h : FirstPsb buffer offset place)
    (h' : FirstPsb buffer offset other) : place = other := by
  rcases Nat.lt_trichotomy place other with hlt | heq | hlt
  · exact absurd h.psbAt (h'.first place h.le hlt)
  · exact heq
  · exact absurd h'.psbAt (h.first other h'.le hlt)

theorem findPsb_eq_some_iff :
    findPsb offset (buffer.drop offset) = some place ↔ FirstPsb buffer offset place := by
  refine ⟨firstPsb_of_findPsb, fun h => ?_⟩
  rcases hfind : findPsb offset (buffer.drop offset) with _ | other
  · exact absurd h.psbAt (findPsb_eq_none_iff.1 hfind place h.le)
  · rw [h.unique (firstPsb_of_findPsb hfind)]

/-- Two searches find the same if the same patterns lie before them. -/
theorem findPsb_congr {i j : Nat} (h : ∀ o, PsbAt buffer o → (i ≤ o ↔ j ≤ o)) :
    findPsb i (buffer.drop i) = findPsb j (buffer.drop j) := by
  have first {i j place : Nat} (h : ∀ o, PsbAt buffer o → (i ≤ o ↔ j ≤ o))
      (hfirst : FirstPsb buffer i place) : FirstPsb buffer j place :=
    ⟨(h place hfirst.psbAt).1 hfirst.le, hfirst.psbAt,
      fun q hq hlt hpsb => hfirst.first q ((h q hpsb).2 hq) hlt hpsb⟩
  apply Option.ext
  intro place
  rw [findPsb_eq_some_iff, findPsb_eq_some_iff]
  exact ⟨first h, first fun o hpsb => (h o hpsb).symm⟩

/-- A pattern in front is found at once. -/
theorem PsbAt.findPsb_drop (h : PsbAt buffer place) (offset : Nat) :
    findPsb offset (buffer.drop place) = some offset := by
  obtain ⟨rest, hrest⟩ := h
  rw [← hrest, findPsb_append]

end

section

variable {buffer : List UInt8} {offset place : Nat}

/-- The pattern lies inside the buffer. -/
theorem PsbAt.add_le (h : PsbAt buffer place) : place + 16 ≤ buffer.length := by
  have hle : 16 ≤ (buffer.drop place).length := h.length_le
  rw [List.length_drop] at hle
  omega

/-- Where the pattern stands does not depend on what follows it. -/
theorem psbAt_append_iff (hle : place + 16 ≤ buffer.length) (more : List UInt8) :
    PsbAt (buffer ++ more) place ↔ PsbAt buffer place := by
  unfold PsbAt
  rw [List.drop_append_of_le_length (by omega)]
  refine ⟨fun h => ?_, fun h => h.trans (List.prefix_append _ _)⟩
  refine List.prefix_of_prefix_length_le h (List.prefix_append _ _) ?_
  rw [List.length_drop]
  show 16 ≤ buffer.length - place
  omega

/-- A search that finds a pattern finds the same one if more bytes follow. -/
theorem findPsb_append_of_some (h : findPsb offset (buffer.drop offset) = some place)
    (more : List UInt8) : findPsb offset ((buffer ++ more).drop offset) = some place := by
  have hfirst := firstPsb_of_findPsb h
  have hle := hfirst.psbAt.add_le
  refine findPsb_eq_some_iff.2
    ⟨hfirst.le, (psbAt_append_iff hle more).2 hfirst.psbAt, fun q hq hlt hpsb => ?_⟩
  exact hfirst.first q hq hlt ((psbAt_append_iff (by omega) more).1 hpsb)

end

/-- The search does not depend on where its bytes start. -/
theorem findPsb_add (offset n : Nat) (bytes : List UInt8) :
    findPsb (offset + n) bytes = (findPsb offset bytes).map (· + n) := by
  induction bytes generalizing offset with
  | nil => rfl
  | cons b rest ih =>
      unfold findPsb
      split
      next => rfl
      next => rw [Nat.add_right_comm offset n 1, ih]

namespace PacketReader

variable {buffer : List UInt8} {offset place : Nat}

theorem peek_mkAt_of_isPrefix (h : psbPattern <+: buffer.drop place) :
    (mkAt buffer place).peek = .ok (some (psb, 16)) := by
  obtain ⟨rest, hrest⟩ := h
  unfold peek mkAt
  simp only [← hrest, parse_psbPattern]

/-- A walk that goes on at the place found reads a synchronisation packet first. -/
theorem peek_of_findPsb (h : findPsb offset (buffer.drop offset) = some place) :
    (mkAt buffer place).peek = .ok (some (psb, 16)) :=
  peek_mkAt_of_isPrefix (psbAt_of_findPsb h)

end PacketReader

end BranchWatch
