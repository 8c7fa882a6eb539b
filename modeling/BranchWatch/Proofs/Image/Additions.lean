import BranchWatch.Proofs.Image.Lookup

/-!
# What an image holds

Code is added to an image piece by piece, and a piece that overlaps an older one replaces it.  So
the image holds the pieces that no later one overlaps (`Live`), each at its place and with its
bytes.  `Image.holds_live` says this for every sequence of additions and for each way to look at an
image.
-/

namespace BranchWatch

namespace Section

theorem ext {s t : Section} (hstart : s.start = t.start) (hbytes : s.bytes = t.bytes) : s = t := by
  cases s
  cases t
  simp_all

/-- The sections have an address in common. -/
def Overlaps (s t : Section) : Prop :=
  ∃ address : Nat, (s.start.toNat ≤ address ∧ address < s.stop) ∧
    (t.start.toNat ≤ address ∧ address < t.stop)

theorem apart_iff {s t : Section} : s.apart t = true ↔ ¬ s.Overlaps t := by
  have hs := s.start_lt_stop
  have ht := t.start_lt_stop
  simp only [apart, Bool.or_eq_true, decide_eq_true_eq]
  constructor
  · rintro h ⟨address, hs, ht⟩
    omega
  · intro h
    -- Otherwise the higher one of the two starts lies in both sections.
    refine Classical.byContradiction fun hne => ?_
    exact h ⟨max s.start.toNat t.start.toNat, by omega, by omega⟩

theorem Before.start_lt {s t : Section} (h : s.Before t) : s.start < t.start := by
  have hs := s.start_lt_stop
  unfold Before at h
  exact UInt64.lt_iff_toNat_lt.2 (by omega)

theorem Before.not_overlaps {s t : Section} (h : s.Before t) : ¬ s.Overlaps t :=
  apart_iff.1 (by simp [apart, show s.stop ≤ t.start.toNat from h])

end Section

/-- A request to add code. -/
inductive Addition where
  | bytes (start : UInt64) (contents : Array UInt8)
  | mapped (start : UInt64) (file : Array UInt8) (offset length : Nat)

namespace Addition

/-- The image behind the request. -/
def apply (image : Image) : Addition → Image
  | bytes start contents => image.addBytes start contents
  | mapped start file offset length => image.addMapped start file offset length

def start : Addition → UInt64
  | bytes start _ | mapped start .. => start

/-- The bytes asked for.  Those of a file end where the file ends. -/
def contents : Addition → List UInt8
  | bytes _ contents => contents.toList
  | mapped _ file offset length => (file.toList.take (min (offset + length) file.size)).drop offset

/-- The section asked for.  A request for no bytes asks for none, and so does one for bytes that
reach behind the last address. -/
def Asks (a : Addition) (s : Section) : Prop :=
  s.start = a.start ∧ s.bytes.toList = a.contents

variable {a : Addition} {s t : Section} {image : Image}

theorem Asks.unique (hs : a.Asks s) (ht : a.Asks t) : s = t :=
  Section.ext (hs.1.trans ht.1.symm) (Array.toList_inj.1 (hs.2.trans ht.2.symm))

theorem exists_asks_iff (a : Addition) : (∃ s, a.Asks s) ↔
    a.contents ≠ [] ∧ a.start.toNat + a.contents.length < UInt64.size := by
  constructor
  · rintro ⟨s, hstart, hbytes⟩
    have hpos := s.bytes_pos
    have hfits := s.fits
    rw [← Array.length_toList, hbytes] at hpos hfits
    exact ⟨List.ne_nil_of_length_pos hpos, hstart ▸ hfits⟩
  · rintro ⟨hne, hfits⟩
    exact ⟨⟨a.start, a.contents.toArray, by simpa [List.length_pos_iff] using hne,
      by simpa using hfits⟩, rfl, rfl⟩

/-- Both kinds of request add their bytes. -/
theorem apply_eq (a : Addition) (image : Image) :
    a.apply image = image.addBytes a.start a.contents.toArray := by
  cases a with
  | bytes start bytes => rfl
  | mapped start file offset length =>
      have hclamped : (file.toList.drop offset).take (offset + length - offset) =
          (file.toList.drop offset).take (min (offset + length) file.size - offset) := by
        rw [List.take_eq_take_iff, List.length_drop, Array.length_toList]
        omega
      have hbytes : file.extract offset (offset + length) =
          (contents (.mapped start file offset length)).toArray := by
        apply Array.toList_inj.1
        rw [Array.toList_extract, List.extract_eq_take_drop, hclamped, contents, List.drop_take]
      exact congrArg (image.addBytes start) hbytes

theorem apply_of_asks (h : a.Asks s) : a.apply image = image.insert s := by
  obtain ⟨hstart, hbytes⟩ := h
  rw [apply_eq, ← hstart, ← hbytes, Array.toArray_toList]
  exact dif_pos ⟨s.bytes_pos, s.fits⟩

theorem apply_of_not_asks (h : ¬ ∃ s, a.Asks s) : a.apply image = image := by
  rw [exists_asks_iff, ← List.length_pos_iff] at h
  rw [apply_eq]
  exact dif_neg (by simpa using h)

/-- The section of a mapped file has the bytes of the file from the offset on. -/
theorem asks_mapped_iff {start : UInt64} {file : Array UInt8} {offset length : Nat} :
    (mapped start file offset length).Asks s ↔
      s.start = start ∧ s.bytes.size = min (offset + length) file.size - offset ∧
        ∀ i < s.bytes.size, s.bytes[i]? = file[offset + i]? := by
  refine and_congr_right fun _ => ?_
  have hlength : (mapped start file offset length).contents.length =
      min (offset + length) file.size - offset := by
    simp [contents]
  have hget : ∀ i < min (offset + length) file.size - offset,
      (mapped start file offset length).contents[i]? = file[offset + i]? := by
    intro i hi
    rw [contents, List.getElem?_drop, List.getElem?_take_of_lt (by omega), Array.getElem?_toList]
  constructor
  · intro h
    have hsize : s.bytes.size = min (offset + length) file.size - offset := by
      rw [← Array.length_toList, h, hlength]
    refine ⟨hsize, fun i hi => ?_⟩
    rw [← Array.getElem?_toList, h]
    exact hget i (by omega)
  · rintro ⟨hsize, h⟩
    apply List.ext_getElem?
    intro i
    by_cases hi : i < s.bytes.size
    · rw [Array.getElem?_toList, h i hi, hget i (by omega)]
    · rw [List.getElem?_eq_none (by rw [Array.length_toList]; omega),
        List.getElem?_eq_none (by omega)]

end Addition

/-- None of the requests asks for a section that overlaps this one. -/
def Untouched (additions : List Addition) (s : Section) : Prop :=
  ∀ a ∈ additions, ∀ t, a.Asks t → ¬ s.Overlaps t

/-- The section was asked for, and no later request asks for one that overlaps it. -/
def Live (additions : List Addition) (s : Section) : Prop :=
  ∃ before a later, additions = before ++ a :: later ∧ a.Asks s ∧ Untouched later s

section

variable {additions : List Addition} {a : Addition} {s : Section}

theorem not_live_nil : ¬ Live [] s := by
  rintro ⟨before, a, later, hsplit, -⟩
  simp at hsplit

theorem live_cons : Live (a :: additions) s ↔
    Live additions s ∨ (a.Asks s ∧ Untouched additions s) := by
  constructor
  · rintro ⟨before, b, later, hsplit, hb⟩
    cases before with
    | nil =>
        obtain ⟨rfl, rfl⟩ := List.cons.inj hsplit
        exact .inr hb
    | cons _ before =>
        obtain ⟨rfl, rfl⟩ := List.cons.inj hsplit
        exact .inl ⟨before, b, later, rfl, hb⟩
  · rintro (⟨before, b, later, rfl, hb⟩ | ha)
    · exact ⟨a :: before, b, later, rfl, hb⟩
    · exact ⟨[], a, additions, rfl, ha⟩

theorem live_singleton : Live [a] s ↔ a.Asks s := by
  rw [live_cons]
  simp [not_live_nil, Untouched]

theorem untouched_cons : Untouched (a :: additions) s ↔
    (∀ t, a.Asks t → ¬ s.Overlaps t) ∧ Untouched additions s :=
  List.forall_mem_cons

end

/-- Where requests are made one for each of some items, what is live comes from an item that no
later one touches. -/
theorem live_filterMap {α : Type} {f : α → Option Addition} {xs : List α} {s : Section} :
    Live (xs.filterMap f) s ↔ ∃ before x later a,
      xs = before ++ x :: later ∧ f x = some a ∧ a.Asks s ∧ Untouched (later.filterMap f) s := by
  constructor
  · rintro ⟨before, a, later, hsplit, hasks, huntouched⟩
    obtain ⟨front, back, rfl, -, hback⟩ := List.filterMap_eq_append_iff.1 hsplit
    obtain ⟨skipped, x, rest, rfl, -, hx, rfl⟩ := List.filterMap_eq_cons_iff.1 hback
    exact ⟨front ++ skipped, x, rest, a, (List.append_assoc ..).symm, hx, hasks, huntouched⟩
  · rintro ⟨before, x, later, a, rfl, hx, hasks, huntouched⟩
    refine ⟨before.filterMap f, a, later.filterMap f, ?_, hasks, huntouched⟩
    rw [List.filterMap_append, List.filterMap_cons_some hx]

namespace Image

variable {image : Image} {s t : Section} {ip : UInt64}

/-- The image behind a sequence of requests. -/
def ofAdditions (additions : List Addition) : Image :=
  additions.foldl (fun image a => a.apply image) empty

/-- An insertion keeps what it does not overlap. -/
theorem mem_insert :
    t ∈ (image.insert s).sections ↔ t = s ∨ (t ∈ image.sections ∧ ¬ t.Overlaps s) := by
  simp only [insert, mem_place, List.mem_filter, Section.apart_iff]

theorem mem_apply {a : Addition} : t ∈ (a.apply image).sections ↔
    a.Asks t ∨ (t ∈ image.sections ∧ ∀ u, a.Asks u → ¬ t.Overlaps u) := by
  by_cases h : ∃ s, a.Asks s
  · obtain ⟨s, hs⟩ := h
    have hasks : a.Asks t ↔ t = s := ⟨fun ht => ht.unique hs, fun h => h ▸ hs⟩
    have hover : (∀ u, a.Asks u → ¬ t.Overlaps u) ↔ ¬ t.Overlaps s :=
      ⟨fun h => h s hs, fun h u hu => hu.unique hs ▸ h⟩
    rw [Addition.apply_of_asks hs, mem_insert, hasks, hover]
  · have hasks : ∀ u, ¬ a.Asks u := fun u hu => h ⟨u, hu⟩
    simp [Addition.apply_of_not_asks h, hasks]

/-- Behind requests the image holds what is live, and of what it held before what they did not
touch. -/
theorem mem_foldl_apply (additions : List Addition) (image : Image) :
    s ∈ (additions.foldl (fun image a => a.apply image) image).sections ↔
      Live additions s ∨ (s ∈ image.sections ∧ Untouched additions s) := by
  induction additions generalizing image with
  | nil => simp [not_live_nil, Untouched]
  | cons a additions ih =>
      rw [List.foldl_cons, ih, mem_apply, live_cons, untouched_cons, or_assoc, or_and_right,
        and_assoc]

theorem mem_ofAdditions {additions : List Addition} :
    s ∈ (ofAdditions additions).sections ↔ Live additions s := by
  unfold ofAdditions
  simp [mem_foldl_apply, empty]

theorem contains_iff : image.contains ip = true ↔ ∃ s ∈ image.sections, s.covers ip = true := by
  unfold contains
  simp only [Option.isSome_iff_exists, find?_eq_some_iff]

/-- Where nothing is mapped a read changes nothing. -/
theorem readInto_of_not_contains (h : image.contains ip = false) (buffer : List UInt8) :
    image.readInto ip buffer = (none, buffer) := by
  have hfind : image.find? ip = none := by simpa [contains] using h
  simp [readInto, read, hfind]

/-- A read copies the bytes of the section from the address on, as many as there are and as fit. -/
theorem readInto_of_mem (hs : s ∈ image.sections) (hip : s.covers ip = true)
    (buffer : List UInt8) :
    let n := min buffer.length (s.stop - ip.toNat)
    image.readInto ip buffer =
      (some n, (s.bytes.toList.drop (ip.toNat - s.start.toNat)).take n ++ buffer.drop n) := by
  intro n
  have hfind : image.find? ip = some s := find?_eq_some_iff.2 ⟨hs, hip⟩
  have hbounds := Section.covers_iff.1 hip
  have hleft : (s.bytes.toList.drop (ip.toNat - s.start.toNat)).length = s.stop - ip.toNat := by
    rw [List.length_drop, Array.length_toList]
    unfold Section.stop
    omega
  have hread : image.read ip buffer.length =
      some ((s.bytes.toList.drop (ip.toNat - s.start.toNat)).take n) := by
    rw [read, hfind, Option.map_some, Section.read_eq, Option.some_inj, List.take_eq_take_iff]
    omega
  have hlength : ((s.bytes.toList.drop (ip.toNat - s.start.toNat)).take n).length = n := by
    rw [List.length_take]
    omega
  simp only [readInto, hread, hlength]

/-- An image is a faithful map from addresses to bytes.  It holds the live sections of what was
added, sorted and without an address twice, and every look at it tells what these sections have
there. -/
theorem holds_live (additions : List Addition) :
    let image := ofAdditions additions
    (∀ s, s ∈ image.sections ↔ Live additions s) ∧
      image.sections.Pairwise (fun s t => s.start < t.start ∧ ¬ s.Overlaps t) ∧
      (∀ ip, image.contains ip = true ↔ ∃ s, Live additions s ∧ s.covers ip = true) ∧
      (∀ ip buffer, (image.readInto ip buffer).1 = none ↔
        ¬ ∃ s, Live additions s ∧ s.covers ip = true) ∧
      (∀ ip buffer, (image.readInto ip buffer).1 = none → (image.readInto ip buffer).2 = buffer) ∧
      (∀ ip buffer s, Live additions s → s.covers ip = true →
        let n := min buffer.length (s.stop - ip.toNat)
        image.readInto ip buffer =
          (some n, (s.bytes.toList.drop (ip.toNat - s.start.toNat)).take n ++ buffer.drop n)) ∧
      ∀ start file offset length s, (Addition.mapped start file offset length).Asks s ↔
        s.start = start ∧ s.bytes.size = min (offset + length) file.size - offset ∧
          ∀ i < s.bytes.size, s.bytes[i]? = file[offset + i]? := by
  intro image
  have hmem : ∀ s, s ∈ image.sections ↔ Live additions s := fun _ => mem_ofAdditions
  have hcontains : ∀ ip, image.contains ip = true ↔
      ∃ s, Live additions s ∧ s.covers ip = true := by
    intro ip
    simp only [contains_iff, hmem]
  have hread : ∀ ip buffer s, Live additions s → s.covers ip = true →
      let n := min buffer.length (s.stop - ip.toNat)
      image.readInto ip buffer =
        (some n, (s.bytes.toList.drop (ip.toNat - s.start.toNat)).take n ++ buffer.drop n) :=
    fun ip buffer s hs hip => readInto_of_mem ((hmem s).2 hs) hip buffer
  have hnone : ∀ ip buffer, (image.readInto ip buffer).1 = none ↔ image.contains ip = false := by
    intro ip buffer
    cases hip : image.contains ip with
    | false => simp [readInto_of_not_contains hip]
    | true =>
        obtain ⟨s, hs, hcovers⟩ := (hcontains ip).1 hip
        simp [hread ip buffer s hs hcovers]
  refine ⟨hmem, ?_, hcontains, ?_, ?_, hread, fun _ _ _ _ _ => Addition.asks_mapped_iff⟩
  · exact image.pairwise.imp fun h => ⟨h.start_lt, h.not_overlaps⟩
  · intro ip buffer
    rw [hnone, ← hcontains, Bool.not_eq_true]
  · intro ip buffer h
    rw [readInto_of_not_contains ((hnone ip buffer).1 h)]

end Image

end BranchWatch
