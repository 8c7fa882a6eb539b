import BranchWatch.Image.Vdso
import BranchWatch.Proofs.Image.Bytes

/-!
# Where the code of a file stands

The segments of a file are placed relative to the first loadable one.  `Image.byteAt?_addSegments`
says which byte the image has at each address, whatever segments the file is said to have: those of
the executable segments that the file holds in full, unless a later one of them overlaps
(`Segment.Uncovered`), and the bytes of the whole file if there is no such segment.

An offset may be so large that the end of the segment is no 64-bit number; such a segment is left
out like any other that the file does not hold in full.  Addresses are a different matter: a segment
below the first loadable one, or one that ends behind the last address, would have to wrap around,
so that both are excluded here (`Segment.Fits`).
-/

namespace BranchWatch

/-! ## Segments -/

namespace Segment

/-- The address that those of the file are relative to: that of the first loadable segment. -/
def origin (segments : List Segment) : UInt64 :=
  ((segments.find? loadable).map (·.address)).getD 0

/-- The segment has code, and the file has all of it. -/
structure HoldsCode (file : Array UInt8) (s : Segment) : Prop where
  loadable : s.loadable = true
  executable : s.executable = true
  inside : s.offset + s.size ≤ file.size

theorem holdsCode_iff {file : Array UInt8} {s : Segment} : s.HoldsCode file ↔
    s.loadable = true ∧ s.executable = true ∧ s.offset + s.size ≤ file.size :=
  ⟨fun h => ⟨h.loadable, h.executable, h.inside⟩, fun ⟨h₁, h₂, h₃⟩ => ⟨h₁, h₂, h₃⟩⟩

instance (file : Array UInt8) (s : Segment) : Decidable (s.HoldsCode file) :=
  decidable_of_iff _ holdsCode_iff.symm

/-- Where the segment starts in memory, as a number without bound. -/
def place (base : UInt64) (segments : List Segment) (s : Segment) : Nat :=
  base.toNat + (s.address.toNat - (origin segments).toNat)

/-- The segments have an address in common. -/
def Overlaps (base : UInt64) (segments : List Segment) (s t : Segment) : Prop :=
  ∃ address : Nat,
    (place base segments s ≤ address ∧ address < place base segments s + s.size) ∧
      (place base segments t ≤ address ∧ address < place base segments t + t.size)

/-- The segment has code, and no later one that has code overlaps it. -/
def Uncovered (base : UInt64) (file : Array UInt8) (segments : List Segment) (s : Segment) : Prop :=
  ∃ before later, segments = before ++ s :: later ∧ s.HoldsCode file ∧
    ∀ t ∈ later, t.HoldsCode file → ¬ Overlaps base segments s t

/-- The segment starts and ends at addresses. -/
structure Fits (base : UInt64) (segments : List Segment) (s : Segment) : Prop where
  origin_le : (origin segments).toNat ≤ s.address.toNat
  stop_lt : place base segments s + s.size < UInt64.size

instance (base : UInt64) (segments : List Segment) (s : Segment) :
    Decidable (Fits base segments s) :=
  decidable_of_iff ((origin segments).toNat ≤ s.address.toNat ∧
      place base segments s + s.size < UInt64.size)
    ⟨fun ⟨h₁, h₂⟩ => ⟨h₁, h₂⟩, fun h => ⟨h.origin_le, h.stop_lt⟩⟩

/-- The request for the bytes that the file has of a segment. -/
def code (base : UInt64) (file : Array UInt8) (segments : List Segment) (s : Segment) : Addition :=
  .bytes (base + (s.address - origin segments)) (file.extract s.offset (s.offset + s.size))

/-- The request for the code of a segment, if there is any. -/
def request? (base : UInt64) (file : Array UInt8) (segments : List Segment) (s : Segment) :
    Option Addition :=
  if s.HoldsCode file then some (s.code base file segments) else none

/-- The section is that of the segment. -/
def Stands (base : UInt64) (file : Array UInt8) (segments : List Segment) (s : Segment)
    (sec : Section) : Prop :=
  sec.start.toNat = place base segments s ∧ sec.bytes = file.extract s.offset (s.offset + s.size)

variable {base : UInt64} {file : Array UInt8} {segments : List Segment} {s t : Segment}
  {a : Addition} {sec other : Section}

theorem Uncovered.mem_and_holdsCode (h : Uncovered base file segments s) :
    s ∈ segments ∧ s.HoldsCode file := by
  obtain ⟨before, later, rfl, hcode, -⟩ := h
  exact ⟨List.mem_append_cons_self, hcode⟩

theorem request?_eq_some_iff : s.request? base file segments = some a ↔
    s.HoldsCode file ∧ s.code base file segments = a := by
  rw [request?, Option.ite_none_right_eq_some, Option.some_inj]

/-- What is asked for is the code of the segments that have any. -/
theorem mem_requests {chosen : List Segment} :
    a ∈ chosen.filterMap (request? base file segments) ↔
      ∃ s ∈ chosen, s.HoldsCode file ∧ s.code base file segments = a := by
  simp only [List.mem_filterMap, request?_eq_some_iff]

/-- The code of a file, told segment by segment. -/
theorem map_codeAt (base : UInt64) (file : Array UInt8) (segments : List Segment) :
    (codeAt base file segments).map (fun piece => Addition.bytes piece.1 piece.2) =
      segments.filterMap (request? base file segments) := by
  -- `codeAt` filters before it looks at the contents, and `request?` asks for all at once.
  have hcode : codeAt base file segments =
      ((segments.filter loadable).filter executable).filterMap fun s =>
        (s.contents? file).map fun code => (base + (s.address - origin segments), code) := by
    unfold codeAt origin
    rw [← List.head?_filter]
    cases segments.filter loadable <;> rfl
  rw [hcode, List.map_filterMap, List.filterMap_filter, List.filterMap_filter]
  refine congrArg (segments.filterMap ·) (funext fun s => ?_)
  unfold request? contents?
  simp only [holdsCode_iff]
  cases s.loadable <;> cases s.executable <;>
    by_cases hinside : s.offset + s.size ≤ file.size <;> simp [hinside, code]

/-- The address that is asked for is the place of the segment. -/
theorem Fits.toNat_start (h : Fits base segments s) :
    (base + (s.address - origin segments)).toNat = place base segments s := by
  have hstop : base.toNat + (s.address.toNat - (origin segments).toNat) + s.size < UInt64.size :=
    h.stop_lt
  rw [UInt64.toNat_add, UInt64.toNat_sub_of_le _ _ (UInt64.le_iff_toNat_le.2 h.origin_le),
    Nat.mod_eq_of_lt (Nat.lt_of_le_of_lt (Nat.le_add_right _ _) hstop), place]

/-- A segment that fits asks for its bytes at its place. -/
theorem Fits.asks_iff (h : Fits base segments s) :
    (s.code base file segments).Asks sec ↔ s.Stands base file segments sec := by
  unfold Addition.Asks Stands
  rw [← h.toNat_start, UInt64.toNat_inj]
  exact and_congr_right fun _ => Array.toList_inj

theorem HoldsCode.size_of_stands (h : s.HoldsCode file) (hsec : s.Stands base file segments sec) :
    sec.bytes.size = s.size := by
  have := h.inside
  rw [hsec.2, Array.size_extract]
  omega

theorem HoldsCode.stop_of_stands (h : s.HoldsCode file) (hsec : s.Stands base file segments sec) :
    sec.stop = place base segments s + s.size := by
  rw [Section.stop, hsec.1, h.size_of_stands hsec]

/-- The section has the bytes of the file behind the offset. -/
theorem HoldsCode.getElem?_of_stands (h : s.HoldsCode file)
    (hsec : s.Stands base file segments sec) {i : Nat} (hi : i < s.size) :
    sec.bytes[i]? = file[s.offset + i]? := by
  have := h.inside
  rw [hsec.2, Array.getElem?_extract, if_pos (by omega)]

/-- Sections overlap as the segments do. -/
theorem overlaps_iff (hs : s.HoldsCode file) (ht : t.HoldsCode file)
    (hsec : s.Stands base file segments sec) (hother : t.Stands base file segments other) :
    sec.Overlaps other ↔ Overlaps base segments s t := by
  unfold Section.Overlaps Overlaps
  rw [hs.stop_of_stands hsec, ht.stop_of_stands hother, hsec.1, hother.1]

/-- A segment that has bytes and fits has a section. -/
theorem Fits.exists_stands (h : Fits base segments s) (hcode : s.HoldsCode file)
    (hpos : 0 < s.size) : ∃ sec, s.Stands base file segments sec := by
  have hinside := hcode.inside
  have hsize : (file.extract s.offset (s.offset + s.size)).size = s.size := by
    rw [Array.size_extract]
    omega
  have hstop := h.stop_lt
  rw [← h.toNat_start, ← hsize] at hstop
  exact ⟨⟨base + (s.address - origin segments), _, hsize.symm ▸ hpos, hstop⟩, h.toNat_start, rfl⟩

/-- Numbers one behind the other, each with how many bytes it has. -/
def fields (numbers : List (Nat × Nat)) : List UInt8 :=
  numbers.flatMap fun x => LittleEndian.bytes x.1 x.2

/-- The program header of a segment. -/
def header (s : Segment) : List UInt8 :=
  fields [(4, s.kind), (4, s.flags), (8, s.offset), (8, s.address.toNat), (8, s.address.toNat),
    (8, s.size), (8, s.size), (8, 1)]

/-- A 64-bit shared object that consists of its headers. -/
def object (segments : List Segment) : Array UInt8 :=
  (fields [(4, 0x464c457f), (4, 0x10102), (8, 0), (2, 3), (2, 62), (4, 1), (8, 0), (8, 64), (8, 0),
    (4, 0), (2, 64), (2, 56), (2, segments.length), (2, 64), (2, 0), (2, 0)] ++
      segments.flatMap header).toArray

end Segment

/-! ## Requests -/

/-- The requests for the code of a file mapped at `base`. -/
def Addition.ofSegments (base : UInt64) (file : Array UInt8) (segments : List Segment) :
    List Addition :=
  match Segment.codeAt base file segments with
  | [] => [.bytes base file]
  | code => code.map fun piece => .bytes piece.1 piece.2

theorem Image.addSegments_eq (image : Image) (base : UInt64) (file : Array UInt8)
    (report : Option (List Segment)) : image.addSegments base file report =
      (Addition.ofSegments base file (report.getD [])).foldl (fun image a => a.apply image)
        image := by
  unfold addSegments Addition.ofSegments
  cases Segment.codeAt base file (report.getD []) with
  | nil => rfl
  | cons piece code =>
      simp only [List.foldl_map]
      rfl

namespace Addition

open Segment

variable {base : UInt64} {file : Array UInt8} {segments : List Segment}

theorem ofSegments_of_none (h : ¬ ∃ s ∈ segments, s.HoldsCode file) :
    ofSegments base file segments = [.bytes base file] := by
  have hnil : segments.filterMap (request? base file segments) = [] := by
    refine List.eq_nil_iff_forall_not_mem.2 fun a ha => ?_
    obtain ⟨s, hs, hcode, -⟩ := mem_requests.1 ha
    exact h ⟨s, hs, hcode⟩
  rw [← map_codeAt, List.map_eq_nil_iff] at hnil
  rw [ofSegments, hnil]

theorem ofSegments_of_exists (h : ∃ s ∈ segments, s.HoldsCode file) :
    ofSegments base file segments = segments.filterMap (request? base file segments) := by
  obtain ⟨s, hs, hcode⟩ := h
  have hmem : s.code base file segments ∈ segments.filterMap (request? base file segments) :=
    mem_requests.2 ⟨s, hs, hcode, rfl⟩
  rw [← map_codeAt base file segments] at hmem ⊢
  unfold ofSegments
  split
  next hnil =>
    rw [hnil] at hmem
    cases hmem
  next => rfl

/-- The requests for later segments leave the section of a segment alone if and only if none of
those segments overlaps it. -/
theorem untouched_requests {later : List Segment} {s : Segment} {sec : Section}
    (hfits : ∀ t ∈ later, t.HoldsCode file → Fits base segments t) (hcode : s.HoldsCode file)
    (hsec : s.Stands base file segments sec) :
    Untouched (later.filterMap (request? base file segments)) sec ↔
      ∀ t ∈ later, t.HoldsCode file → ¬ Segment.Overlaps base segments s t := by
  constructor
  · intro huntouched t ht htcode hoverlaps
    have htpos : 0 < t.size := by
      obtain ⟨address, -, hlow, hhigh⟩ := hoverlaps
      omega
    have htfits := hfits t ht htcode
    obtain ⟨other, hother⟩ := htfits.exists_stands htcode htpos
    exact huntouched _ (mem_requests.2 ⟨t, ht, htcode, rfl⟩) other (htfits.asks_iff.2 hother)
      ((overlaps_iff hcode htcode hsec hother).2 hoverlaps)
  · intro hapart a ha other hasks hoverlaps
    obtain ⟨t, ht, htcode, rfl⟩ := mem_requests.1 ha
    have hother := (hfits t ht htcode).asks_iff.1 hasks
    exact hapart t ht htcode ((overlaps_iff hcode htcode hsec hother).1 hoverlaps)

/-- Of segments that fit, the sections of those that no later one overlaps are live. -/
theorem live_ofSegments (hfits : ∀ s ∈ segments, s.HoldsCode file → Fits base segments s)
    (h : ∃ s ∈ segments, s.HoldsCode file) {sec : Section} :
    Live (ofSegments base file segments) sec ↔
      ∃ s, Uncovered base file segments s ∧ s.Stands base file segments sec := by
  rw [ofSegments_of_exists h, live_filterMap]
  constructor
  · rintro ⟨before, s, later, a, hsplit, hrequest, hasks, huntouched⟩
    obtain ⟨hcode, rfl⟩ := request?_eq_some_iff.1 hrequest
    have hlater : ∀ t ∈ later, t.HoldsCode file → Fits base segments t :=
      fun t ht => hfits t (by simp [hsplit, ht])
    have hsec := (hfits s (by simp [hsplit]) hcode).asks_iff.1 hasks
    exact ⟨s, ⟨before, later, hsplit, hcode, (untouched_requests hlater hcode hsec).1 huntouched⟩,
      hsec⟩
  · rintro ⟨s, ⟨before, later, hsplit, hcode, hapart⟩, hsec⟩
    have hlater : ∀ t ∈ later, t.HoldsCode file → Fits base segments t :=
      fun t ht => hfits t (by simp [hsplit, ht])
    exact ⟨before, s, later, _, hsplit, request?_eq_some_iff.2 ⟨hcode, rfl⟩,
      (hfits s (by simp [hsplit]) hcode).asks_iff.2 hsec,
      (untouched_requests hlater hcode hsec).2 hapart⟩

end Addition

/-! ## The image of a file -/

namespace Image

open Segment

section

variable {base : UInt64} {file : Array UInt8} {segments : List Segment} {address : UInt64}
  {byte : UInt8}

theorem byteAt?_ofSegments_of_none (hbase : base.toNat + file.size < UInt64.size)
    (h : ¬ ∃ s ∈ segments, s.HoldsCode file) :
    (ofAdditions (Addition.ofSegments base file segments)).byteAt? address = some byte ↔
      ∃ i, address.toNat = base.toNat + i ∧ file[i]? = some byte := by
  rw [Addition.ofSegments_of_none h, byteAt?_ofAdditions_eq_some_iff]
  simp only [live_singleton]
  constructor
  · rintro ⟨sec, hasks, i, hi, hbyte⟩
    rw [Addition.Asks, Addition.start, Addition.contents, Array.toList_inj] at hasks
    exact ⟨i, hasks.1 ▸ hi, hasks.2 ▸ hbyte⟩
  · rintro ⟨i, hi, hbyte⟩
    have hpos : 0 < file.size := Nat.zero_lt_of_lt (Array.getElem?_eq_some_iff.1 hbyte).1
    exact ⟨⟨base, file, hpos, hbase⟩, ⟨rfl, rfl⟩, i, hi, hbyte⟩

theorem byteAt?_ofSegments_of_exists
    (hfits : ∀ s ∈ segments, s.HoldsCode file → Fits base segments s)
    (h : ∃ s ∈ segments, s.HoldsCode file) :
    (ofAdditions (Addition.ofSegments base file segments)).byteAt? address = some byte ↔
      ∃ s, Uncovered base file segments s ∧
        ∃ i < s.size, address.toNat = Segment.place base segments s + i ∧
          file[s.offset + i]? = some byte := by
  rw [byteAt?_ofAdditions_eq_some_iff]
  simp only [Addition.live_ofSegments hfits h]
  constructor
  · rintro ⟨sec, ⟨s, huncovered, hstands⟩, i, hi, hbyte⟩
    have hcode := huncovered.mem_and_holdsCode.2
    have hlt := (Array.getElem?_eq_some_iff.1 hbyte).1
    rw [hcode.size_of_stands hstands] at hlt
    refine ⟨s, huncovered, i, hlt, hstands.1 ▸ hi, ?_⟩
    rw [← hcode.getElem?_of_stands hstands hlt, hbyte]
  · rintro ⟨s, huncovered, i, hlt, hi, hbyte⟩
    obtain ⟨hs, hcode⟩ := huncovered.mem_and_holdsCode
    obtain ⟨sec, hstands⟩ := (hfits s hs hcode).exists_stands hcode (Nat.zero_lt_of_lt hlt)
    refine ⟨sec, ⟨s, huncovered, hstands⟩, i, hstands.1 ▸ hi, ?_⟩
    rw [hcode.getElem?_of_stands hstands hlt, hbyte]

end

/-- The code of a file is where the segments say.  If the file has no executable segment in full, or
is none with segments, all its bytes are at its base.  Otherwise the bytes of those segments are at
their places, except where a later one overlaps; and there is nothing else. -/
theorem byteAt?_addSegments (base : UInt64) (file : Array UInt8) (report : Option (List Segment))
    (hbase : base.toNat + file.size < UInt64.size)
    (hfits : ∀ s ∈ report.getD [], s.HoldsCode file → Fits base (report.getD []) s) :
    let segments := report.getD []
    let image := empty.addSegments base file report
    (¬(∃ s ∈ segments, s.HoldsCode file) → ∀ address byte, image.byteAt? address = some byte ↔
        ∃ i, address.toNat = base.toNat + i ∧ file[i]? = some byte) ∧
      ((∃ s ∈ segments, s.HoldsCode file) → ∀ address byte, image.byteAt? address = some byte ↔
        ∃ s, Uncovered base file segments s ∧
          ∃ i < s.size, address.toNat = Segment.place base segments s + i ∧
            file[s.offset + i]? = some byte) ∧
      ∀ sec ∈ image.sections, sec.stop < UInt64.size := by
  intro segments image
  have himage : image = ofAdditions (Addition.ofSegments base file segments) :=
    addSegments_eq empty base file report
  rw [himage]
  exact ⟨fun hnone _ _ => byteAt?_ofSegments_of_none hbase hnone,
    fun hsome _ _ => byteAt?_ofSegments_of_exists hfits hsome, fun sec _ => sec.stop_lt⟩

/-- A file whose segments are headers of it: one of another kind, one without code, two that overlap
and one that the file does not hold in full.  The fourth has its bytes in the image, relative to the
second. -/
theorem byteAt?_addSegments_of_overlap :
    let segments : List Segment := [⟨4, 5, 0, 0, 8⟩, ⟨1, 4, 0, 0x100, 64⟩, ⟨1, 5, 0, 0x140, 3⟩,
      ⟨1, 5, 1, 0x142, 2⟩, ⟨1, 5, 1, 0x142, 0x1000⟩]
    let file := object segments
    allOf? file = some segments ∧
      (0x7000 : UInt64).toNat + file.size < UInt64.size ∧
      (∀ s ∈ segments, s.HoldsCode file → Fits 0x7000 segments s) ∧
      (∃ s ∈ segments, s.HoldsCode file) ∧
      (empty.addVdso 0x7000 file).byteAt? 0x7043 = some 0x4c := by
  intro segments file
  have hreport : allOf? file = some segments := by decide +kernel
  have hbase : (0x7000 : UInt64).toNat + file.size < UInt64.size := by decide +kernel
  have hfits : ∀ s ∈ segments, s.HoldsCode file → Fits 0x7000 segments s := by decide +kernel
  have hcode : ∃ s ∈ segments, s.HoldsCode file := by decide +kernel
  refine ⟨hreport, hbase, hfits, hcode, ?_⟩
  rw [addVdso, hreport]
  refine ((byteAt?_addSegments 0x7000 file (some segments) hbase hfits).2.1 hcode _ _).2 ?_
  have huncovered : Uncovered 0x7000 file segments ⟨1, 5, 1, 0x142, 2⟩ := by
    refine ⟨segments.take 3, segments.drop 4, rfl, by decide +kernel, fun t ht htcode => ?_⟩
    obtain rfl := List.mem_singleton.1 ht
    exact absurd htcode (by decide +kernel)
  exact ⟨_, huncovered, 1, by decide, by decide, by decide +kernel⟩

end Image

end BranchWatch
