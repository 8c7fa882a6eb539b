import BranchWatch.Proofs.Image.Additions

/-!
# An image byte by byte

`Image.byteAt?` is what an image holds at one address.  It depends only on the section that covers
the address (`byteAt?_congr`), and so on nothing that was asked for elsewhere: if each of several
groups of requests stays between bounds of its own, then the image of all of them has the sections
of each (`mem_ofAdditions_flatMap`).
-/

namespace BranchWatch

namespace Section

variable {s t : Section}

theorem Overlaps.bounds (h : s.Overlaps t) :
    s.start.toNat < t.stop ∧ t.start.toNat < s.stop := by
  obtain ⟨address, hs, ht⟩ := h
  omega

end Section

namespace Image

variable {image I J : Image} {s : Section} {ip : UInt64}

/-- The byte at an address. -/
def byteAt? (image : Image) (ip : UInt64) : Option UInt8 := (image.read ip 1).bind List.head?

theorem byteAt?_of_mem (hs : s ∈ image.sections) (hip : s.covers ip = true) :
    image.byteAt? ip = s.bytes[ip.toNat - s.start.toNat]? := by
  rw [byteAt?, read, find?_eq_some_iff.2 ⟨hs, hip⟩, Option.map_some, Option.bind_some,
    Section.read_eq, List.head?_take, if_neg Nat.one_ne_zero, List.head?_drop,
    Array.getElem?_toList]

theorem byteAt?_of_not_contains (h : image.contains ip = false) : image.byteAt? ip = none := by
  have hfind : image.find? ip = none := by simpa [contains] using h
  rw [byteAt?, read, hfind, Option.map_none, Option.bind_none]

/-- There is a byte where something is mapped, and only there. -/
theorem isSome_byteAt? (image : Image) (ip : UInt64) :
    (image.byteAt? ip).isSome = image.contains ip := by
  cases hip : image.contains ip with
  | false => rw [byteAt?_of_not_contains hip, Option.isSome_none]
  | true =>
      obtain ⟨s, hs, hcovers⟩ := contains_iff.1 hip
      obtain ⟨hstart, hstop⟩ := Section.covers_iff.1 hcovers
      have hin : ip.toNat - s.start.toNat < s.bytes.size := by
        unfold Section.stop at hstop
        omega
      rw [byteAt?_of_mem hs hcovers, Array.getElem?_eq_getElem hin, Option.isSome_some]

/-- Images with the same section at an address have the same byte there. -/
theorem byteAt?_congr (h : ∀ s, s.covers ip = true → (s ∈ I.sections ↔ s ∈ J.sections)) :
    I.byteAt? ip = J.byteAt? ip := by
  cases hip : I.contains ip with
  | true =>
      obtain ⟨s, hs, hcovers⟩ := contains_iff.1 hip
      rw [byteAt?_of_mem hs hcovers, byteAt?_of_mem ((h s hcovers).1 hs) hcovers]
  | false =>
      have hnone : J.contains ip = false := by
        rw [← Bool.not_eq_true, contains_iff] at hip ⊢
        rintro ⟨s, hs, hcovers⟩
        exact hip ⟨s, (h s hcovers).2 hs, hcovers⟩
      rw [byteAt?_of_not_contains hip, byteAt?_of_not_contains hnone]

theorem byteAt?_empty (ip : UInt64) : empty.byteAt? ip = none := by
  refine byteAt?_of_not_contains ?_
  rw [← Bool.not_eq_true, contains_iff]
  simp [empty]

end Image

theorem Live.exists_asks {additions : List Addition} {s : Section} (h : Live additions s) :
    ∃ a ∈ additions, a.Asks s := by
  obtain ⟨before, a, later, rfl, hasks, -⟩ := h
  exact ⟨a, by simp, hasks⟩

namespace Addition

/-- All that the requests ask for lies between two bounds. -/
def Confined (low high : Nat) (additions : List Addition) : Prop :=
  ∀ a ∈ additions, ∀ s, a.Asks s → low ≤ s.start.toNat ∧ s.stop ≤ high

theorem confined_nil (low high : Nat) : Confined low high [] := fun _ h => nomatch h

/-- A section lies behind its start, and ends behind its bytes. -/
theorem Asks.stop_eq {a : Addition} {s : Section} (h : a.Asks s) :
    s.stop = a.start.toNat + a.contents.length := by
  rw [Section.stop, h.1, ← h.2, Array.length_toList]

theorem confined_singleton {a : Addition} {low high : Nat} (hlow : low ≤ a.start.toNat)
    (hhigh : a.start.toNat + a.contents.length ≤ high) : Confined low high [a] := by
  intro b hb s hs
  obtain rfl := List.mem_singleton.1 hb
  exact ⟨hs.1 ▸ hlow, hs.stop_eq ▸ hhigh⟩

/-- A mapped file has no more bytes than are mapped. -/
theorem length_contents_mapped (start : UInt64) (file : Array UInt8) (offset length : Nat) :
    (mapped start file offset length).contents.length ≤ length := by
  simp only [contents, List.length_drop, List.length_take]
  omega

/-- A mapped file has the byte of the file behind the offset, if the file is so long. -/
theorem getElem?_contents_mapped (start : UInt64) (file : Array UInt8) (offset : Nat)
    {length i : Nat} (hi : i < length) :
    (mapped start file offset length).contents[i]? = file[offset + i]? := by
  rw [contents, List.getElem?_drop, List.getElem?_take]
  split
  next => exact Array.getElem?_toList
  next hend => exact (Array.getElem?_eq_none (by omega)).symm

end Addition

namespace Image

variable {s : Section} {ip : UInt64}

theorem ofAdditions_nil : ofAdditions [] = empty := rfl

theorem mem_ofAdditions_append {earlier later : List Addition} :
    s ∈ (ofAdditions (earlier ++ later)).sections ↔
      Live later s ∨ (s ∈ (ofAdditions earlier).sections ∧ Untouched later s) := by
  rw [ofAdditions, List.foldl_append, mem_foldl_apply]
  rfl

/-- A byte stands where a live section has it. -/
theorem byteAt?_ofAdditions_eq_some_iff {additions : List Addition} {address : UInt64}
    {byte : UInt8} : (ofAdditions additions).byteAt? address = some byte ↔
      ∃ s, Live additions s ∧ ∃ i, address.toNat = s.start.toNat + i ∧
        s.bytes[i]? = some byte := by
  constructor
  · intro hbyte
    have hcontains := isSome_byteAt? (ofAdditions additions) address
    rw [hbyte, Option.isSome_some, eq_comm, contains_iff] at hcontains
    obtain ⟨s, hs, hcovers⟩ := hcontains
    rw [byteAt?_of_mem hs hcovers] at hbyte
    have := (Section.covers_iff.1 hcovers).1
    exact ⟨s, mem_ofAdditions.1 hs, address.toNat - s.start.toNat, by omega, hbyte⟩
  · rintro ⟨s, hs, i, hi, hbyte⟩
    have hlt := (Array.getElem?_eq_some_iff.1 hbyte).1
    have hcovers : s.covers address = true :=
      Section.covers_iff.2 ⟨by omega, by unfold Section.stop; omega⟩
    rw [byteAt?_of_mem (mem_ofAdditions.2 hs) hcovers, hi, Nat.add_sub_cancel_left, hbyte]

/-- One request puts its bytes at its start. -/
theorem byteAt?_ofAdditions_singleton (a : Addition)
    (hfits : a.start.toNat + a.contents.length < UInt64.size)
    (hstart : a.start.toNat ≤ ip.toNat) :
    (ofAdditions [a]).byteAt? ip = a.contents[ip.toNat - a.start.toNat]? := by
  refine Option.ext fun byte => byteAt?_ofAdditions_eq_some_iff.trans ?_
  simp only [live_singleton]
  constructor
  · rintro ⟨s, ⟨hs, hbytes⟩, i, hi, hbyte⟩
    rw [← hs, hi, Nat.add_sub_cancel_left, ← hbytes, Array.getElem?_toList, hbyte]
  · intro hbyte
    have hlt := (List.getElem?_eq_some_iff.1 hbyte).1
    obtain ⟨s, hs⟩ := (Addition.exists_asks_iff a).2 ⟨List.ne_nil_of_length_pos (by omega), hfits⟩
    refine ⟨s, hs, ip.toNat - a.start.toNat, ?_, ?_⟩
    · rw [hs.1]
      omega
    · rw [← Array.getElem?_toList, hs.2, hbyte]

/-- Groups of requests that keep to bounds of their own, one behind the other, leave each other's
sections alone. -/
theorem mem_ofAdditions_flatMap {α : Type} {low high : α → Nat} {group : α → List Addition}
    {xs : List α} (hconfined : ∀ x ∈ xs, Addition.Confined (low x) (high x) (group x))
    (hbefore : xs.Pairwise fun x y => high x ≤ low y) :
    s ∈ (ofAdditions (xs.flatMap group)).sections ↔
      ∃ x ∈ xs, s ∈ (ofAdditions (group x)).sections := by
  induction xs with
  | nil => simp [ofAdditions_nil, empty]
  | cons x xs ih =>
      obtain ⟨hx, hxs⟩ := List.forall_mem_cons.1 hconfined
      obtain ⟨hbehind, hbefore⟩ := List.pairwise_cons.1 hbefore
      have huntouched (h : s ∈ (ofAdditions (group x)).sections) :
          Untouched (xs.flatMap group) s := by
        intro a ha t ht hoverlaps
        obtain ⟨y, hy, hay⟩ := List.mem_flatMap.1 ha
        obtain ⟨b, hb, hs⟩ := (mem_ofAdditions.1 h).exists_asks
        have hstop := (hx b hb s hs).2
        have hstart := (hxs y hy a hay t ht).1
        have := hbehind y hy
        have := hoverlaps.bounds
        omega
      rw [List.flatMap_cons, mem_ofAdditions_append, ← mem_ofAdditions, ih hxs hbefore,
        or_comm, and_iff_left_of_imp huntouched]
      simp

section

variable {α : Type} {low high : α → Nat} {group : α → List Addition} {xs : List α}

/-- A section of a group of requests lies between the bounds of the group. -/
theorem bounds_of_mem_ofAdditions {x : α}
    (hconfined : Addition.Confined (low x) (high x) (group x))
    (hs : s ∈ (ofAdditions (group x)).sections) (hip : s.covers ip = true) :
    low x ≤ ip.toNat ∧ ip.toNat < high x := by
  obtain ⟨a, ha, hasks⟩ := (mem_ofAdditions.1 hs).exists_asks
  have hbounds := hconfined a ha s hasks
  have hcovers := Section.covers_iff.1 hip
  omega

/-- Between the bounds of a group of requests stands what the group alone would put there. -/
theorem byteAt?_ofAdditions_flatMap
    (hconfined : ∀ x ∈ xs, Addition.Confined (low x) (high x) (group x))
    (hbefore : xs.Pairwise fun x y => high x ≤ low y) {x : α} (hx : x ∈ xs)
    (hip : low x ≤ ip.toNat ∧ ip.toNat < high x) :
    (ofAdditions (xs.flatMap group)).byteAt? ip = (ofAdditions (group x)).byteAt? ip := by
  refine byteAt?_congr fun s hcovers => (mem_ofAdditions_flatMap hconfined hbefore).trans ?_
  refine ⟨fun ⟨y, hy, hs⟩ => ?_, fun hs => ⟨x, hx, hs⟩⟩
  have hy' := bounds_of_mem_ofAdditions (hconfined y hy) hs hcovers
  -- Bounds that have an address in common are those of one group.
  obtain ⟨i, hi, rfl⟩ := List.getElem_of_mem hx
  obtain ⟨j, hj, rfl⟩ := List.getElem_of_mem hy
  rw [List.pairwise_iff_getElem] at hbefore
  rcases Nat.lt_trichotomy i j with hlt | rfl | hlt
  · have := hbefore i j hi hj hlt
    omega
  · exact hs
  · have := hbefore j i hj hi hlt
    omega

theorem byteAt?_ofAdditions_flatMap_of_outside
    (hconfined : ∀ x ∈ xs, Addition.Confined (low x) (high x) (group x))
    (hbefore : xs.Pairwise fun x y => high x ≤ low y)
    (hip : ∀ x ∈ xs, group x ≠ [] → ¬(low x ≤ ip.toNat ∧ ip.toNat < high x)) :
    (ofAdditions (xs.flatMap group)).byteAt? ip = none := by
  refine (byteAt?_congr fun s hcovers => ?_).trans (byteAt?_empty ip)
  rw [mem_ofAdditions_flatMap hconfined hbefore]
  refine ⟨fun ⟨x, hx, hs⟩ => ?_, fun hs => nomatch hs⟩
  have hgroup : group x ≠ [] := fun hnil => by
    rw [hnil] at hs
    cases hs
  exact absurd (bounds_of_mem_ofAdditions (hconfined x hx) hs hcovers) (hip x hx hgroup)

end

end Image

end BranchWatch
