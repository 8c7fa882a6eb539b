/-!
# Binary search in a partitioned list

A list is partitioned by a property if the elements that have it stand in front of those that have
it not.  The number of the elements in front is found by halving; the search may not be used on
other lists, where its result means nothing.
-/

namespace BranchWatch

variable {α : Type}

/-- Searches between `low` and `high`: every element below `low` has the property, and none from
`high` on. -/
def partitionPoint.search (p : α → Bool) (xs : List α) (low high : Nat) : Nat :=
  if low < high then
    let middle := (low + high) / 2
    if xs[middle]?.any p then search p xs (middle + 1) high else search p xs low middle
  else low
termination_by high - low

/-- The number of elements with the property in a list that is partitioned by it. -/
def partitionPoint (p : α → Bool) (xs : List α) : Nat := partitionPoint.search p xs 0 xs.length

/-- The elements with the property stand in front. -/
def Partitioned (p : α → Bool) (xs : List α) : Prop := xs.Pairwise fun x y => p y → p x

variable {p : α → Bool} {xs : List α}

theorem Partitioned.of_le (hp : Partitioned p xs) {i j : Nat} (hi : i < xs.length)
    (hj : j < xs.length) (hij : i ≤ j) (h : p xs[j]) : p xs[i] := by
  rcases Nat.lt_or_eq_of_le hij with hlt | rfl
  · exact List.pairwise_iff_getElem.1 hp i j hi hj hlt h
  · exact h

/-- What `search` keeps: the answer lies between `low` and `high`. -/
theorem partitionPoint.search_spec (hp : Partitioned p xs) {low high : Nat} (hle : low ≤ high)
    (hlow : ∀ i (hi : i < xs.length), i < low → p xs[i])
    (hhigh : ∀ i (hi : i < xs.length), high ≤ i → ¬ p xs[i]) (hlength : high ≤ xs.length)
    {i : Nat} (hi : i < xs.length) : i < search p xs low high ↔ p xs[i] := by
  fun_induction search p xs low high with
  | case1 low high hlt middle hmiddle ih =>
      have hin : middle < xs.length := by omega
      rw [List.getElem?_eq_getElem hin, Option.any_some] at hmiddle
      refine ih (by omega) (fun j hj hj' => ?_) hhigh hlength
      exact hp.of_le hj hin (by omega) hmiddle
  | case2 low high hlt middle hmiddle ih =>
      have hin : middle < xs.length := by omega
      rw [List.getElem?_eq_getElem hin, Option.any_some] at hmiddle
      refine ih (by omega) hlow (fun j hj hj' h => ?_) (by omega)
      exact hmiddle (hp.of_le hin hj hj' h)
  | case3 low high hge =>
      obtain rfl : low = high := by omega
      exact ⟨hlow i hi, fun h => Nat.lt_of_not_le fun hle => hhigh i hi hle h⟩

theorem partitionPoint.search_le (p : α → Bool) (xs : List α) {low high : Nat} (hle : low ≤ high) :
    search p xs low high ≤ high := by
  fun_induction search p xs low high with
  | case1 low high hlt middle _ ih => exact ih (by omega)
  | case2 low high hlt middle _ ih => exact Nat.le_trans (ih (by omega)) (by omega)
  | case3 => exact hle

theorem partitionPoint_le_length (p : α → Bool) (xs : List α) : partitionPoint p xs ≤ xs.length :=
  partitionPoint.search_le p xs (Nat.zero_le _)

/-- The elements with the property are those in front of the partition point. -/
theorem lt_partitionPoint_iff (hp : Partitioned p xs) {i : Nat} (hi : i < xs.length) :
    i < partitionPoint p xs ↔ p xs[i] :=
  partitionPoint.search_spec hp (Nat.zero_le _) (by omega) (by omega) (Nat.le_refl _) hi

theorem of_mem_take_partitionPoint (hp : Partitioned p xs) {x : α}
    (h : x ∈ xs.take (partitionPoint p xs)) : p x := by
  obtain ⟨i, hi, rfl⟩ := List.mem_take_iff_getElem.1 h
  exact (lt_partitionPoint_iff hp (by omega)).1 (by omega)

theorem not_of_mem_drop_partitionPoint (hp : Partitioned p xs) {x : α}
    (h : x ∈ xs.drop (partitionPoint p xs)) : ¬ p x := by
  obtain ⟨i, hi, rfl⟩ := List.mem_drop_iff_getElem.1 h
  intro hx
  have hlt := (lt_partitionPoint_iff hp (by omega)).2 hx
  omega

end BranchWatch
