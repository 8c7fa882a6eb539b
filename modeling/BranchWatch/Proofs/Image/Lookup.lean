import BranchWatch.Image.Basic

/-!
# Looking up addresses

The sections of an image are sorted and disjoint, so the search by halving finds the one section
that covers an address, if there is one (`find?_eq_some_iff`).  What is read at an address depends on
that section alone, so it stays the same in every image that has the section as well
(`read_of_subset`).
-/

namespace BranchWatch

namespace Section

theorem covers_iff {s : Section} {ip : UInt64} :
    s.covers ip = true ↔ s.start.toNat ≤ ip.toNat ∧ ip.toNat < s.stop := by
  simp [covers]

/-- Reading is taking bytes behind an offset. -/
theorem read_eq (s : Section) (ip : UInt64) (count : Nat) :
    s.read ip count = (s.bytes.toList.drop (ip.toNat - s.start.toNat)).take count := by
  unfold read
  simp only [Array.toList_extract, List.extract_eq_take_drop, Nat.add_sub_cancel_left]

/-- Reading gives as much as is asked for, or all up to the end of the section. -/
theorem length_read {s : Section} {ip : UInt64} (hip : s.covers ip = true) (count : Nat) :
    (s.read ip count).length = min count (s.stop - ip.toNat) := by
  obtain ⟨hstart, -⟩ := covers_iff.1 hip
  rw [read_eq, List.length_take, List.length_drop, Array.length_toList]
  unfold stop
  omega

/-- Reading less gives the front of what reading more gives. -/
theorem take_read (s : Section) (ip : UInt64) {m n : Nat} (h : m ≤ n) :
    (s.read ip n).take m = s.read ip m := by
  rw [read_eq, read_eq, List.take_take, Nat.min_eq_left h]

end Section

namespace Image

variable {image I J : Image} {s : Section} {ip : UInt64}

theorem partitioned_start_le (image : Image) (ip : UInt64) :
    Partitioned (·.start ≤ ip) image.sections :=
  partitioned_of_start image.pairwise fun _ _ htu hu =>
    decide_eq_true (UInt64.le_trans (UInt64.le_of_lt htu) (of_decide_eq_true hu))

/-- The search stops behind the section that covers the address. -/
theorem partitionPoint_eq_succ {i : Nat} (hi : i < image.sections.length)
    (h : image.sections[i].covers ip = true) :
    partitionPoint (·.start ≤ ip) image.sections = i + 1 := by
  have hpart := partitioned_start_le image ip
  obtain ⟨hstart, hstop⟩ := Section.covers_iff.1 h
  have hlt : i < partitionPoint (·.start ≤ ip) image.sections :=
    (lt_partitionPoint_iff hpart hi).2 (decide_eq_true (UInt64.le_iff_toNat_le.2 hstart))
  have hle := partitionPoint_le_length (fun s : Section => s.start ≤ ip) image.sections
  by_cases hnext : i + 1 < partitionPoint (·.start ≤ ip) image.sections
  · -- The next section starts behind this one, so behind the address.
    have hlength : i + 1 < image.sections.length := by omega
    have hbefore : image.sections[i].stop ≤ image.sections[i + 1].start.toNat :=
      List.pairwise_iff_getElem.1 image.pairwise i (i + 1) hi hlength (by omega)
    have hreached := UInt64.le_iff_toNat_le.1
      (of_decide_eq_true ((lt_partitionPoint_iff hpart hlength).1 hnext))
    omega
  · omega

/-- The section found is the one that covers the address. -/
theorem find?_eq_some_iff :
    image.find? ip = some s ↔ s ∈ image.sections ∧ s.covers ip = true := by
  constructor
  · intro h
    unfold find? at h
    split at h
    next => cases h
    next n hn =>
      obtain ⟨hs, hstop⟩ := Option.filter_eq_some_iff.1 h
      obtain ⟨hlength, rfl⟩ := List.getElem?_eq_some_iff.1 hs
      have hstart := (lt_partitionPoint_iff (partitioned_start_le image ip) hlength).1 (by omega)
      refine ⟨List.getElem_mem hlength, Section.covers_iff.2 ⟨?_, of_decide_eq_true hstop⟩⟩
      exact UInt64.le_iff_toNat_le.1 (of_decide_eq_true hstart)
  · rintro ⟨hmem, hs⟩
    obtain ⟨i, hi, rfl⟩ := List.getElem_of_mem hmem
    have hstop := (Section.covers_iff.1 hs).2
    unfold find?
    rw [partitionPoint_eq_succ hi hs]
    simp [hstop]

/-- What can be read stays readable, and the same, in an image with more sections. -/
theorem read_of_subset (h : ∀ s ∈ I.sections, s ∈ J.sections) {n : Nat} {bytes : List UInt8}
    (hr : I.read ip n = some bytes) : J.read ip n = some bytes := by
  obtain ⟨s, hs, rfl⟩ := Option.map_eq_some_iff.1 hr
  obtain ⟨hmem, hcovers⟩ := find?_eq_some_iff.1 hs
  have hfound : J.find? ip = some s := find?_eq_some_iff.2 ⟨h s hmem, hcovers⟩
  unfold read
  rw [hfound]
  rfl

end Image

end BranchWatch
