import BranchWatch.Image.Process
import BranchWatch.Proofs.Image.Segments

/-!
# An image is faithful to its process

A build fails only where the process cannot be looked at, or where the kernel's own code cannot be
read.  Otherwise the image holds at each address what the executable mapping there holds
(`ProcessImages.build_faithful`), and nothing elsewhere.

Each mapping is a list of requests (`Mapping.requests`).  They depend on what can be learnt about
the process alone, since the files that are opened on the way do not change what a name stands for
(`addMapping_file?`), and they keep to the range of the mapping.  So no mapping disturbs another
one.

Which segments the kernel's code has is told by a parser, and nothing is assumed of it but that the
segments it tells of stay within the mapping (`Mapping.Sound.within`).

A file whose contents changed between two builds is not told of here: the first contents are kept.
-/

namespace BranchWatch

/-! ## What a mapping asks for -/

namespace Mapping

/-- The first address behind the mapping, as a number without bound. -/
def stop (m : Mapping) : Nat := m.start.toNat + m.length

/-- The address lies in the mapping. -/
def Covers (m : Mapping) (address : UInt64) : Prop :=
  m.start.toNat ≤ address.toNat ∧ address.toNat < m.stop

instance (m : Mapping) (address : UInt64) : Decidable (m.Covers address) :=
  inferInstanceAs (Decidable (_ ∧ _))

/-- The first mapping ends before the second starts. -/
def Before (m n : Mapping) : Prop := m.stop ≤ n.start.toNat

instance (m n : Mapping) : Decidable (m.Before n) := inferInstanceAs (Decidable (_ ≤ _))

/-- The code at an address of the mapping.  `files` has the contents of the files that can be
mapped, and `memory` the memory that can be read. -/
def byteAt? (parser : ObjectParser) (files : String → Option (Array UInt8))
    (memory : UInt64 → Nat → Option (Array UInt8)) (m : Mapping) (address : UInt64) :
    Option UInt8 :=
  let place := address.toNat - m.start.toNat
  match m.backing with
  | .file path => (files path).bind fun contents => contents[m.offset + place]?
  | .anonymous => (memory m.start m.length).bind fun bytes => bytes[place]?
  | .vdso =>
    (memory m.start m.length).bind fun bytes =>
      (Image.empty.addSegments m.start bytes (parser bytes)).byteAt? address
  | .other => none

/-- The requests that bring a mapping into an image. -/
def requests (parser : ObjectParser) (files : String → Option (Array UInt8))
    (memory : UInt64 → Nat → Option (Array UInt8)) (m : Mapping) : List Addition :=
  if m.executable then
    match m.backing with
    | .file path =>
      ((files path).map fun contents => .mapped m.start contents m.offset m.length).toList
    | .anonymous => ((memory m.start m.length).map (.bytes m.start)).toList
    | .vdso =>
      ((memory m.start m.length).map fun bytes =>
        Addition.ofSegments m.start bytes ((parser bytes).getD [])).getD []
    | .other => []
  else []

variable {parser : ObjectParser} {files : String → Option (Array UInt8)}
  {memory : UInt64 → Nat → Option (Array UInt8)} {m : Mapping}

theorem requests_of_not_executable (h : ¬m.executable = true) :
    m.requests parser files memory = [] :=
  if_neg h

/-- What the kernel promises of a mapping: the address behind it is an address, memory that is read
is read in full, and of the kernel's code there are only segments within the mapping. -/
structure Sound (parser : ObjectParser) (memory : UInt64 → Nat → Option (Array UInt8))
    (m : Mapping) : Prop where
  stop_lt : m.stop < UInt64.size
  size_eq : ∀ bytes, memory m.start m.length = some bytes → bytes.size = m.length
  within : m.backing = .vdso → ∀ bytes, memory m.start m.length = some bytes →
    ∀ code ∈ Segment.codeAt m.start bytes ((parser bytes).getD []),
      m.start.toNat ≤ code.1.toNat ∧ code.1.toNat + code.2.size ≤ m.stop

theorem Sound.confined_ofSegments (h : m.Sound parser memory) (hvdso : m.backing = .vdso)
    {bytes : Array UInt8} (hbytes : memory m.start m.length = some bytes) :
    Addition.Confined m.start.toNat m.stop
      (Addition.ofSegments m.start bytes ((parser bytes).getD [])) := by
  unfold Addition.ofSegments
  split
  next =>
    have hsize := h.size_eq bytes hbytes
    exact Addition.confined_singleton (Nat.le_refl _)
      (by simp [Addition.start, Addition.contents, stop, hsize])
  next =>
    intro a ha s hs
    obtain ⟨code, hcode, rfl⟩ := List.mem_map.1 ha
    obtain ⟨hstart, hstop⟩ := h.within hvdso bytes hbytes code hcode
    rw [hs.1, hs.stop_eq]
    simpa [Addition.start, Addition.contents] using ⟨hstart, hstop⟩

/-- A mapping asks for nothing outside its range. -/
theorem Sound.confined (h : m.Sound parser memory) :
    Addition.Confined m.start.toNat m.stop (m.requests parser files memory) := by
  unfold requests
  split
  next =>
    cases hbacking : m.backing with
    | file path =>
        simp only
        cases files path with
        | none => exact Addition.confined_nil _ _
        | some contents =>
            exact Addition.confined_singleton (Nat.le_refl _) (Nat.add_le_add_left
              (Addition.length_contents_mapped m.start contents m.offset m.length) _)
    | anonymous =>
        cases hbytes : memory m.start m.length with
        | none => exact Addition.confined_nil _ _
        | some bytes =>
            have hsize := h.size_eq bytes hbytes
            exact Addition.confined_singleton (Nat.le_refl _)
              (by simp [Addition.start, Addition.contents, stop, hsize])
    | vdso =>
        cases hbytes : memory m.start m.length with
        | none => exact Addition.confined_nil _ _
        | some bytes => exact h.confined_ofSegments hbacking hbytes
    | other => exact Addition.confined_nil _ _
  next => exact Addition.confined_nil _ _

/-- The requests of an executable mapping bring the code of the mapping. -/
theorem Sound.byteAt?_requests (h : m.Sound parser memory) {address : UInt64}
    (hexecutable : m.executable = true) (hcovers : m.Covers address) :
    (Image.ofAdditions (m.requests parser files memory)).byteAt? address =
      m.byteAt? parser files memory address := by
  obtain ⟨hstart, hstop⟩ := hcovers
  have hbehind : m.start.toNat + m.length < UInt64.size := h.stop_lt
  rw [requests, if_pos hexecutable, byteAt?]
  cases m.backing with
  | file path =>
      simp only
      cases files path with
      | none => exact Image.byteAt?_empty address
      | some contents =>
          have hplace : address.toNat - m.start.toNat < m.length := by
            unfold stop at hstop
            omega
          have hlength := Addition.length_contents_mapped m.start contents m.offset m.length
          exact (Image.byteAt?_ofAdditions_singleton
              (.mapped m.start contents m.offset m.length)
              (Nat.lt_of_le_of_lt (Nat.add_le_add_left hlength _) hbehind) hstart).trans
            (Addition.getElem?_contents_mapped m.start contents m.offset hplace)
  | anonymous =>
      cases hbytes : memory m.start m.length with
      | none => exact Image.byteAt?_empty address
      | some bytes =>
          rw [← h.size_eq bytes hbytes] at hbehind
          exact (Image.byteAt?_ofAdditions_singleton (.bytes m.start bytes) hbehind hstart).trans
            Array.getElem?_toList
  | vdso =>
      cases memory m.start m.length with
      | none => exact Image.byteAt?_empty address
      | some bytes =>
          exact congrArg (Image.byteAt? · address)
            (Image.addSegments_eq .empty m.start bytes (parser bytes)).symm
  | other => exact Image.byteAt?_empty address

end Mapping

/-! ## A build as requests -/

/-- The memory of the process, where it can be read. -/
def ProcessView.memory? (view : ProcessView) (start : UInt64) (length : Nat) :
    Option (Array UInt8) :=
  (view.readMemory start length).toOption

/-- The kernel's code cannot be read there. -/
def Mapping.Unreadable (view : ProcessView) (m : Mapping) : Prop :=
  m.executable = true ∧ m.backing = .vdso ∧ ∃ cause, view.readMemory m.start m.length = .error cause

namespace ProcessImages

/-- The contents of a file, if it can be mapped. -/
def file? (images : ProcessImages) (view : ProcessView) (path : String) : Option (Array UInt8) :=
  (images.file view path).1.toOption

variable {images : ProcessImages} {view : ProcessView} {image : Image} {m : Mapping}
  {mappings : List Mapping}

/-- Opening one file changes no other one. -/
theorem file_file? (images : ProcessImages) (view : ProcessView) (path : String) :
    (images.file view path).2.file? view = images.file? view := by
  unfold file
  cases hkept : images.files.lookup path with
  | some contents => rfl
  | none =>
      cases hopened : view.openFile path with
      | error cause => rfl
      | ok contents =>
          funext other
          by_cases hother : other = path
          · subst hother
            simp [file?, file, hkept, hopened]
          · have hne : (other == path) = false := by simpa using hother
            simp [file?, file, List.lookup_cons, hne]
            cases images.files.lookup other with
            | some contents => rfl
            | none => cases view.openFile other <;> rfl

/-- Opening files changes nothing but which files are kept. -/
theorem parser_file (images : ProcessImages) (view : ProcessView) (path : String) :
    (images.file view path).2.parser = images.parser := by
  unfold file
  split
  · rfl
  · split <;> rfl

/-- What opening any file keeps is kept by adding a mapping. -/
theorem addMapping_keeps {P : ProcessImages → Prop}
    (hfile : ∀ images path, P images → P (images.file view path).2) (h : P images)
    (image : Image) (m : Mapping) : P (addMapping view images image m).2 := by
  unfold addMapping
  split
  next =>
    cases m.backing with
    | file path =>
        have hfile := hfile images path h
        simp only
        split <;> simp_all
    | vdso => simp only; split <;> exact h
    | anonymous => simp only; split <;> exact h
    | other => exact h
  next => exact h

theorem parser_addMapping (view : ProcessView) (images : ProcessImages) (image : Image)
    (m : Mapping) : (addMapping view images image m).2.parser = images.parser :=
  addMapping_keeps (P := fun left => left.parser = images.parser)
    (fun left path h => (left.parser_file view path).trans h) rfl image m

theorem addMapping_file? (view : ProcessView) (images : ProcessImages) (image : Image)
    (m : Mapping) : (addMapping view images image m).2.file? view = images.file? view :=
  addMapping_keeps (P := fun left => left.file? view = images.file? view)
    (fun left path h => (left.file_file? view path).trans h) rfl image m

/-- A mapping that can be read, or that need not be, puts its requests to the image. -/
theorem addMapping_of_readable (h : ¬m.Unreadable view) :
    (addMapping view images image m).1 =
      .ok ((m.requests images.parser (images.file? view) view.memory?).foldl
        (fun image a => a.apply image) image) := by
  unfold addMapping Mapping.requests
  by_cases hexecutable : m.executable = true
  · rw [if_pos hexecutable, if_pos hexecutable]
    cases hbacking : m.backing with
    | file path =>
        simp only [file?]
        cases hfile : images.file view path with
        | mk found images' => cases found <;> rfl
    | vdso =>
        simp only [ProcessView.memory?]
        cases hread : view.readMemory m.start m.length with
        | ok bytes =>
            exact congrArg Except.ok (image.addSegments_eq m.start bytes (images.parser bytes))
        | error cause => exact absurd ⟨hexecutable, hbacking, cause, hread⟩ h
    | anonymous =>
        simp only [ProcessView.memory?]
        cases view.readMemory m.start m.length <;> rfl
    | other => rfl
  · rw [if_neg hexecutable, if_neg hexecutable]
    rfl

theorem addMapping_of_unreadable (h : m.Unreadable view) :
    ∃ e, (addMapping view images image m).1 = .error e := by
  obtain ⟨hexecutable, hvdso, cause, hcause⟩ := h
  exact ⟨.memory m.start cause, by simp [addMapping, hexecutable, hvdso, hcause]⟩

/-- Mappings of which none is unreadable put their requests to the image. -/
theorem addMappings_of_readable (h : ∀ m ∈ mappings, ¬m.Unreadable view) :
    (addMappings view images image mappings).1 =
      .ok ((mappings.flatMap
          (Mapping.requests images.parser (images.file? view) view.memory?)).foldl
        (fun image a => a.apply image) image) := by
  induction mappings generalizing images image with
  | nil => rfl
  | cons m rest ih =>
      obtain ⟨hm, hrest⟩ := List.forall_mem_cons.1 h
      have hfirst : (addMapping view images image m).1 = _ := addMapping_of_readable hm
      have hfiles := addMapping_file? view images image m
      have hparser := parser_addMapping view images image m
      rw [addMappings]
      cases hadded : addMapping view images image m with
      | mk result images' =>
          rw [hadded] at hfirst hfiles hparser
          simp only at hfirst hfiles hparser
          subst hfirst
          simp only
          rw [ih hrest, hfiles, hparser, List.flatMap_cons, List.foldl_append]

theorem addMappings_of_unreadable (hm : m ∈ mappings) (h : m.Unreadable view) :
    ∃ e, (addMappings view images image mappings).1 = .error e := by
  induction mappings generalizing images image with
  | nil => cases hm
  | cons first rest ih =>
      rw [addMappings]
      rcases List.mem_cons.1 hm with rfl | hm
      · obtain ⟨e, he⟩ : ∃ e, (addMapping view images image m).1 = .error e :=
          addMapping_of_unreadable h
        cases hadded : addMapping view images image m with
        | mk result images' =>
            rw [hadded] at he
            exact ⟨e, by simp only at he; subst he; rfl⟩
      · cases hadded : addMapping view images image first with
        | mk result images' =>
            cases result with
            | ok image' => exact ih hm
            | error e => exact ⟨e, rfl⟩

/-! ## The files kept -/

/-- All files kept were opened so. -/
def Kept (opened : String → Array UInt8 → Prop) (images : ProcessImages) : Prop :=
  ∀ path contents, images.files.lookup path = some contents → opened path contents

variable {opened : String → Array UInt8 → Prop}

theorem Kept.file (h : Kept opened images)
    (hview : ∀ path contents, view.openFile path = .ok contents → opened path contents)
    (path : String) : Kept opened (images.file view path).2 := by
  unfold ProcessImages.file
  cases hkept : images.files.lookup path with
  | some contents => exact h
  | none =>
      cases hopened : view.openFile path with
      | error cause => exact h
      | ok contents =>
          intro other contents' hlookup
          rw [List.lookup_cons] at hlookup
          split at hlookup
          next heq =>
            obtain rfl := eq_of_beq heq
            obtain rfl := Option.some_inj.1 hlookup
            exact hview other contents hopened
          next => exact h other contents' hlookup

/-- What opening any file keeps is kept by a whole build. -/
theorem build_keeps {P : ProcessImages → Prop}
    (hfile : ∀ images path, P images → P (images.file view path).2) (h : P images) :
    P (images.build view).2 := by
  have hadd (image : Image) (mappings : List Mapping) :
      P (addMappings view images image mappings).2 := by
    induction mappings generalizing images image with
    | nil => exact h
    | cons m rest ih =>
        have hfirst := addMapping_keeps hfile h image m
        rw [addMappings]
        cases hadded : addMapping view images image m with
        | mk result images' =>
            rw [hadded] at hfirst
            cases result with
            | ok image' => exact ih hfirst image'
            | error e => exact hfirst
  unfold build
  cases view.mappings with
  | error fault => exact h
  | ok mappings =>
      simp only
      cases view.openMemory with
      | error cause => exact h
      | ok => exact hadd .empty mappings

/-- What is kept behind builds for one view after the other. -/
def after (images : ProcessImages) (views : List ProcessView) : ProcessImages :=
  views.foldl (fun images v => (images.build v).2) images

/-- Builds ask the same parser each time. -/
theorem parser_after (images : ProcessImages) (views : List ProcessView) :
    (images.after views).parser = images.parser := by
  induction views generalizing images with
  | nil => rfl
  | cons v views ih =>
      have hbuild : (images.build v).2.parser = images.parser :=
        build_keeps (P := fun left => left.parser = images.parser)
          (fun left path h => (left.parser_file v path).trans h) rfl
      exact (ih (images.build v).2).trans hbuild

theorem Kept.after (h : Kept opened images) {views : List ProcessView}
    (hviews : ∀ v ∈ views, ∀ path contents, v.openFile path = .ok contents →
      opened path contents) : Kept opened (images.after views) := by
  induction views generalizing images with
  | nil => exact h
  | cons v views ih =>
      obtain ⟨hv, hviews⟩ := List.forall_mem_cons.1 hviews
      exact ih (build_keeps (fun _ path hkept => hkept.file hv path) h) hviews

theorem kept_nil (pid : Int) (parser : ObjectParser) : Kept opened ⟨pid, parser, []⟩ :=
  fun _ _ h => nomatch h

/-- If each name stands for one content, then a file that was kept or can be opened has that. -/
theorem file?_eq {content : String → Array UInt8}
    (h : Kept (fun path contents => contents = content path) images)
    (hview : ∀ path contents, view.openFile path = .ok contents → contents = content path) :
    images.file? view = fun path =>
      if (images.files.lookup path).isSome ∨ (view.openFile path).isOk then some (content path)
      else none := by
  funext path
  unfold file? file
  cases hkept : images.files.lookup path with
  | some contents => simp [Except.toOption, h path contents hkept]
  | none =>
      cases hopened : view.openFile path with
      | ok contents =>
          simp [Except.toOption, Except.isOk, Except.toBool, hview path contents hopened]
      | error cause => simp [Except.toOption, Except.isOk, Except.toBool]

/-! ## Faithful -/

theorem build_fails_iff : (∃ e, (images.build view).1 = .error e) ↔
    (∃ fault, view.mappings = .error fault) ∨ (∃ cause, view.openMemory = .error cause) ∨
      ∃ mappings, view.mappings = .ok mappings ∧ ∃ m ∈ mappings, m.Unreadable view := by
  unfold build
  cases view.mappings with
  | error fault => simp
  | ok mappings =>
      cases view.openMemory with
      | error cause => simp
      | ok =>
          simp only [reduceCtorEq, exists_false, false_or, Except.ok.injEq, exists_eq_left']
          constructor
          · rintro ⟨e, he⟩
            refine Classical.byContradiction fun hnone => ?_
            rw [addMappings_of_readable fun m hm h => hnone ⟨m, hm, h⟩] at he
            cases he
          · rintro ⟨m, hm, h⟩
            exact addMappings_of_unreadable hm h

/-- A build that does not fail puts the requests of all mappings to an empty image. -/
theorem build_eq_ok (h : (images.build view).1 = .ok image) :
    ∃ mappings, view.mappings = .ok mappings ∧
      image = .ofAdditions
        (mappings.flatMap
          (Mapping.requests images.parser (images.file? view) view.memory?)) := by
  have hnever : ¬∃ e, (images.build view).1 = .error e := by
    rintro ⟨e, he⟩
    rw [h] at he
    cases he
  rw [build_fails_iff, not_or, not_or] at hnever
  obtain ⟨hmappings, hmemory, hreadable⟩ := hnever
  unfold build at h
  cases hview : view.mappings with
  | error fault => exact absurd ⟨fault, hview⟩ hmappings
  | ok mappings =>
      cases hopen : view.openMemory with
      | error cause => exact absurd ⟨cause, hopen⟩ hmemory
      | ok =>
          simp only [hview, hopen] at h
          rw [addMappings_of_readable fun m hm hm' => hreadable ⟨mappings, hview, m, hm, hm'⟩] at h
          exact ⟨mappings, rfl, (Except.ok.inj h).symm⟩

/-- **An image is faithful to its process.**  Let the mappings of a process be in ascending order
and disjoint, with an address behind the last one, let memory that is read be read in full, and let
the segments that the parser tells of the kernel's code stay within its mapping.  Let also each name
stand for one content of a file, now and in all builds before.  Then a build fails exactly if the
mappings or the memory cannot be opened, or if code of the kernel that is mapped as executable cannot
be read.  Otherwise the image has at each address that an executable mapping covers the byte of that
mapping, if there is one, and nothing at any other address. -/
theorem build_faithful (pid : Int) (parser : ObjectParser) (earlier : List ProcessView)
    (view : ProcessView) (content : String → Array UInt8)
    (hcontent : ∀ v ∈ view :: earlier, ∀ path contents, v.openFile path = .ok contents →
      contents = content path)
    (hordered : ∀ mappings, view.mappings = .ok mappings → mappings.Pairwise Mapping.Before)
    (hsound : ∀ mappings, view.mappings = .ok mappings →
      ∀ m ∈ mappings, m.Sound parser view.memory?) :
    let images := (ProcessImages.mk pid parser []).after earlier
    let files (path : String) : Option (Array UInt8) :=
      if (images.files.lookup path).isSome ∨ (view.openFile path).isOk then some (content path)
      else none
    ((∃ e, (images.build view).1 = .error e) ↔
      (∃ fault, view.mappings = .error fault) ∨ (∃ cause, view.openMemory = .error cause) ∨
        ∃ mappings, view.mappings = .ok mappings ∧ ∃ m ∈ mappings, m.Unreadable view) ∧
    (∀ path, (images.files.lookup path).isSome → ∃ v ∈ earlier, (v.openFile path).isOk) ∧
    ∀ image, (images.build view).1 = .ok image → ∃ mappings, view.mappings = .ok mappings ∧
      ∀ address,
        (∀ m ∈ mappings, m.executable = true → m.Covers address →
          image.byteAt? address = m.byteAt? parser files view.memory? address) ∧
        ((∀ m ∈ mappings, m.executable = true → ¬m.Covers address) →
          image.byteAt? address = none) := by
  intro images files
  obtain ⟨hview, hearlier⟩ := List.forall_mem_cons.1 hcontent
  have hfiles : images.file? view = files :=
    file?_eq ((kept_nil pid parser).after hearlier) hview
  have hparser : images.parser = parser := parser_after _ earlier
  refine ⟨build_fails_iff, fun path hpath => ?_, fun image himage => ?_⟩
  · obtain ⟨contents, hcontents⟩ := Option.isSome_iff_exists.1 hpath
    have hkept : Kept (fun path contents => ∃ v ∈ earlier, v.openFile path = .ok contents) images :=
      (kept_nil pid parser).after fun v hv path contents h => ⟨v, hv, h⟩
    obtain ⟨v, hv, hopened⟩ := hkept path contents hcontents
    exact ⟨v, hv, by rw [hopened]; rfl⟩
  · obtain ⟨mappings, hmappings, rfl⟩ := build_eq_ok himage
    rw [hfiles, hparser]
    have hbefore := hordered mappings hmappings
    have hconfined : ∀ m ∈ mappings,
        Addition.Confined m.start.toNat m.stop (m.requests parser files view.memory?) :=
      fun m hm => (hsound mappings hmappings m hm).confined
    refine ⟨mappings, hmappings, fun address =>
      ⟨fun m hm hexecutable hcovers => ?_, fun hnone => ?_⟩⟩
    · rw [Image.byteAt?_ofAdditions_flatMap hconfined hbefore hm hcovers,
        (hsound mappings hmappings m hm).byteAt?_requests hexecutable hcovers]
    · refine Image.byteAt?_ofAdditions_flatMap_of_outside hconfined hbefore fun m hm hrequests => ?_
      refine hnone m hm (Decidable.byContradiction fun hexecutable => ?_)
      exact hrequests (Mapping.requests_of_not_executable hexecutable)

/-- A process with a program, two pieces of code without a file, of which only the second can be
read, and the kernel's code. -/
def sampleView (present : Bool) : ProcessView where
  mappings := .ok [⟨0x1000, 8, true, 1, .file "/bin/tool"⟩, ⟨0x2000, 4, true, 0, .anonymous⟩,
    ⟨0x2004, 2, true, 0, .anonymous⟩, ⟨0x7000, 2, true, 0, .vdso⟩]
  openMemory := .ok ()
  readMemory start length :=
    if start = 0x2000 then .error "Input/output error (os error 5)"
    else .ok (Array.replicate length 0xc3)
  openFile _ :=
    if present then .ok #[0x90, 0x55, 0x5d] else .error "No such file or directory (os error 2)"

theorem eq_of_memory?_sampleView {present : Bool} {start : UInt64} {length : Nat}
    {bytes : Array UInt8} (h : (sampleView present).memory? start length = some bytes) :
    bytes = Array.replicate length 0xc3 := by
  unfold ProcessView.memory? sampleView at h
  simp only at h
  split at h
  · cases h
  · exact (Option.some_inj.1 h).symm

/-- The program was deleted behind the first build, and the second one still has its code. -/
theorem build_faithful_deleted :
    let view := sampleView false
    (∀ v ∈ [view, sampleView true], ∀ path contents, v.openFile path = .ok contents →
      contents = #[0x90, 0x55, 0x5d]) ∧
    (∀ mappings, view.mappings = .ok mappings → mappings.Pairwise Mapping.Before) ∧
    (∀ mappings, view.mappings = .ok mappings →
      ∀ m ∈ mappings, m.Sound Segment.allOf? view.memory?) ∧
    ∃ image, (((ProcessImages.mk 7 Segment.allOf? []).after
        [sampleView true]).build view).1 = .ok image ∧
      image.byteAt? 0x1001 = some 0x5d ∧ image.byteAt? 0x1002 = none ∧
      image.byteAt? 0x2000 = none ∧ image.byteAt? 0x2004 = some 0xc3 ∧
      image.byteAt? 0x7001 = some 0xc3 ∧ image.byteAt? 0x3000 = none := by
  intro view
  have hcontent : ∀ v ∈ [view, sampleView true], ∀ path contents,
      v.openFile path = .ok contents → contents = #[0x90, 0x55, 0x5d] := by
    intro v hv path contents h
    simp only [List.mem_cons, List.not_mem_nil, or_false] at hv
    rcases hv with rfl | rfl
    · cases h
    · exact (Except.ok.inj h).symm
  have hordered : ∀ mappings, view.mappings = .ok mappings → mappings.Pairwise Mapping.Before := by
    intro mappings h
    obtain rfl := Except.ok.inj h
    decide
  have hsound : ∀ mappings, view.mappings = .ok mappings →
      ∀ m ∈ mappings, m.Sound Segment.allOf? view.memory? := by
    intro mappings h m hm
    obtain rfl := Except.ok.inj h
    refine ⟨?_, fun bytes hbytes => ?_, fun hvdso bytes hbytes => ?_⟩
    · revert m
      decide
    · rw [eq_of_memory?_sampleView hbytes, Array.size_replicate]
    · simp only [List.mem_cons, List.not_mem_nil, or_false] at hm
      rcases hm with rfl | rfl | rfl | rfl
      · cases hvdso
      · cases hvdso
      · cases hvdso
      · rw [eq_of_memory?_sampleView hbytes]
        decide
  obtain ⟨hfails, -, hfaithful⟩ :=
    build_faithful 7 Segment.allOf? [sampleView true] view _ hcontent hordered hsound
  refine ⟨hcontent, hordered, hsound, ?_⟩
  cases hbuilt : (((ProcessImages.mk 7 Segment.allOf? []).after
      [sampleView true]).build view).1 with
  | error e =>
      obtain ⟨fault, h⟩ | ⟨cause, h⟩ | ⟨mappings, h, m, hm, -, hvdso, cause, hread⟩ :=
        hfails.1 ⟨e, hbuilt⟩
      · cases h
      · cases h
      · obtain rfl := Except.ok.inj h
        simp only [List.mem_cons, List.not_mem_nil, or_false] at hm
        rcases hm with rfl | rfl | rfl | rfl
        · cases hvdso
        · cases hvdso
        · cases hvdso
        · cases hread
  | ok image =>
      obtain ⟨mappings, hmappings, hbytes⟩ := hfaithful image hbuilt
      obtain rfl := Except.ok.inj hmappings
      have hprogram := (hbytes 0x1001).1 _ (List.mem_cons_self ..) rfl (by decide)
      have hbehind := (hbytes 0x1002).1 _ (List.mem_cons_self ..) rfl (by decide)
      have hunreadable :=
        (hbytes 0x2000).1 ⟨0x2000, 4, true, 0, .anonymous⟩ (by simp) rfl (by decide)
      have hanonymous :=
        (hbytes 0x2004).1 ⟨0x2004, 2, true, 0, .anonymous⟩ (by simp) rfl (by decide)
      have hvdso := (hbytes 0x7001).1 ⟨0x7000, 2, true, 0, .vdso⟩ (by simp) rfl (by decide)
      have hnowhere := (hbytes 0x3000).2 (by decide)
      refine ⟨image, rfl, ?_⟩
      rw [hprogram, hbehind, hunreadable, hanonymous, hvdso, hnowhere]
      decide +kernel

end ProcessImages

end BranchWatch
