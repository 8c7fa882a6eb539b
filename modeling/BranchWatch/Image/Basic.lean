import BranchWatch.Image.PartitionPoint
import BranchWatch.Text.Hex

/-!
# Code images

The trace carries outcomes of branches only, so the bytes of the instructions
come from an image of the code: a list of sections, each a run of bytes at an
address.

The sections are sorted and disjoint, which the type of images says
(`Image.pairwise`), so they are searched by halving (`partitionPoint`).  A
section that is added replaces every section it overlaps, whole, also the parts
it does not cover.  Reading stops at the end of a section even where the next
section follows without a gap.

The address behind a section is an address, too (`Section.fits`), so no sum of an
address in a section and a number of bytes behind it is too large for one.
-/

namespace BranchWatch

/-- A run of bytes at an address; there is at least one, and behind the last one
there is still an address. -/
structure Section where
  start : UInt64
  bytes : Array UInt8
  bytes_pos : 0 < bytes.size
  fits : start.toNat + bytes.size < UInt64.size

namespace Section

/-- The first address behind the section. -/
def stop (s : Section) : Nat := s.start.toNat + s.bytes.size

/-- The address lies in the section. -/
def covers (s : Section) (ip : UInt64) : Bool :=
  s.start.toNat ≤ ip.toNat && ip.toNat < s.stop

/-- The sections have no address in common. -/
def apart (s t : Section) : Bool :=
  s.stop ≤ t.start.toNat || t.stop ≤ s.start.toNat

/-- The first section ends before the second starts. -/
def Before (s t : Section) : Prop := s.stop ≤ t.start.toNat

theorem start_lt_stop (s : Section) : s.start.toNat < s.stop :=
  Nat.lt_add_of_pos_right s.bytes_pos

theorem stop_lt (s : Section) : s.stop < UInt64.size := s.fits

/-- The section's bytes from an address on, at most `n` of them. -/
def read (s : Section) (ip : UInt64) (n : Nat) : List UInt8 :=
  let offset := ip.toNat - s.start.toNat
  (s.bytes.extract offset (offset + n)).toList

/-- The range of the section as text. -/
def range (s : Section) : String :=
  Hex.number s.start.toNat ++ "-" ++ Hex.number s.stop

end Section

/-- The code of a process. -/
structure Image where
  sections : List Section
  pairwise : sections.Pairwise Section.Before

namespace Image

def empty : Image := ⟨[], .nil⟩

instance : Inhabited Image := ⟨empty⟩

/-- Sorted sections are partitioned by every property that a lower start does not lose. -/
theorem partitioned_of_start {p : Section → Bool} {ts : List Section}
    (hp : ts.Pairwise Section.Before) (h : ∀ t u, t.start < u.start → p u → p t) :
    Partitioned p ts := by
  refine hp.imp fun {t u} (htu : t.stop ≤ u.start.toNat) => h t u ?_
  have ht := t.start_lt_stop
  exact UInt64.lt_iff_toNat_lt.2 (by omega)

/-- Puts a section behind those that start below it. -/
def place (s : Section) (ts : List Section) : List Section :=
  let n := partitionPoint (·.start < s.start) ts
  ts.take n ++ s :: ts.drop n

theorem mem_place {s t : Section} {ts : List Section} : t ∈ place s ts ↔ t = s ∨ t ∈ ts := by
  unfold place
  rw [List.mem_append, List.mem_cons, or_left_comm, ← List.mem_append, List.take_append_drop]

theorem pairwise_place {s : Section} {ts : List Section} (hp : ts.Pairwise Section.Before)
    (ha : ∀ t ∈ ts, t.apart s) : (place s ts).Pairwise Section.Before := by
  have hpart : Partitioned (·.start < s.start) ts :=
    partitioned_of_start hp fun _ _ htu hu =>
      decide_eq_true (UInt64.lt_trans htu (of_decide_eq_true hu))
  have hapart : ∀ t ∈ ts, t.stop ≤ s.start.toNat ∨ s.stop ≤ t.start.toNat := by
    intro t ht
    simpa [Section.apart] using ha t ht
  have hs := s.start_lt_stop
  unfold place
  generalize hn : partitionPoint (fun t : Section => t.start < s.start) ts = n
  have hfront : ∀ t ∈ ts.take n, t.Before s := by
    intro t ht
    have hlt : t.start < s.start := of_decide_eq_true (of_mem_take_partitionPoint hpart (hn ▸ ht))
    have hlt : t.start.toNat < s.start.toNat := UInt64.lt_iff_toNat_lt.1 hlt
    have := hapart t (List.mem_of_mem_take ht)
    unfold Section.Before
    omega
  have hback : ∀ t ∈ ts.drop n, s.Before t := by
    intro t ht
    have hge := not_of_mem_drop_partitionPoint hpart (hn ▸ ht)
    have hge : ¬ t.start.toNat < s.start.toNat := by
      simpa [UInt64.lt_iff_toNat_lt] using hge
    have := hapart t (List.mem_of_mem_drop ht)
    have ht := t.start_lt_stop
    unfold Section.Before
    omega
  rw [← List.take_append_drop n ts, List.pairwise_append] at hp
  obtain ⟨htake, hdrop, hacross⟩ := hp
  refine List.pairwise_append.2 ⟨htake, List.pairwise_cons.2 ⟨hback, hdrop⟩, fun t ht u hu => ?_⟩
  rcases List.mem_cons.1 hu with rfl | hu
  · exact hfront t ht
  · exact hacross t ht u hu

/-- Adds a section in place of all that overlap it. -/
def insert (image : Image) (s : Section) : Image where
  sections := place s (image.sections.filter (·.apart s))
  pairwise := pairwise_place (image.pairwise.filter _) fun _ h => (List.mem_filter.1 h).2

/-- Adds bytes at an address.  No bytes add nothing, and neither do bytes that
would reach behind the last address, where no process has any. -/
def addBytes (image : Image) (start : UInt64) (bytes : Array UInt8) : Image :=
  if h : 0 < bytes.size ∧ start.toNat + bytes.size < UInt64.size then
    image.insert ⟨start, bytes, h.1, h.2⟩
  else image

/-- Adds `length` bytes of a file from `offset` on, as far as the file goes. -/
def addMapped (image : Image) (start : UInt64) (file : Array UInt8) (offset length : Nat) :
    Image :=
  image.addBytes start (file.extract offset (offset + length))

/-- The section that an address lies in: the last one that does not start above it, if it reaches so
far. -/
def find? (image : Image) (ip : UInt64) : Option Section :=
  match partitionPoint (·.start ≤ ip) image.sections with
  | 0 => none
  | n + 1 => image.sections[n]?.filter fun s => ip.toNat < s.stop

def contains (image : Image) (ip : UInt64) : Bool :=
  (image.find? ip).isSome

/-- The bytes at an address, at most `n`, up to the end of the section; `none`
where nothing is mapped. -/
def read (image : Image) (ip : UInt64) (n : Nat) : Option (List UInt8) :=
  (image.find? ip).map (·.read ip n)

/-- Copies the bytes at an address to the front of a buffer, as many as there are and as fit.  Tells
how many were copied; where nothing is mapped the buffer stays as it is. -/
def readInto (image : Image) (ip : UInt64) (buffer : List UInt8) : Option Nat × List UInt8 :=
  match image.read ip buffer.length with
  | some bytes => (some bytes.length, bytes ++ buffer.drop bytes.length)
  | none => (none, buffer)

def size (image : Image) : Nat := image.sections.length

/-- The ranges of the sections as a bracketed list of quoted texts. -/
def describe (image : Image) : String :=
  "[" ++ ", ".intercalate (image.sections.map fun s => "\"" ++ s.range ++ "\"") ++ "]"

end Image

end BranchWatch
