import BranchWatch.Image.Basic
import BranchWatch.LittleEndian

/-!
# Code that the kernel maps into every process

The kernel's code in user space is a small object file that has no name on disk.
Which segments it has is for a parser of such files to say (`ObjectParser`).  Its
executable segments are placed relative to the first loadable segment.  Bytes that
are no such file, or a file without a usable executable segment, are kept whole at
the place of the mapping.

`Segment.allOf?` is a parser for the files that the kernels of 64-bit machines map.
-/

namespace BranchWatch

/-- The entries of a program header that say what a segment holds and where it
is loaded. -/
structure Segment where
  kind : Nat
  flags : Nat
  offset : Nat
  address : UInt64
  size : Nat
  deriving DecidableEq, Repr

/-- The segments that a file is said to have, in its own order; `none` if it is said
not to be an object file. -/
abbrev ObjectParser := Array UInt8 → Option (List Segment)

namespace Segment

/-- The segment is loaded into memory. -/
def loadable (s : Segment) : Bool := s.kind = 1

def executable (s : Segment) : Bool := s.flags % 2 = 1

/-- The number in the `n` bytes at an offset of a file. -/
def field (file : Array UInt8) (offset n : Nat) : Nat :=
  LittleEndian.value (file.extract offset (offset + n)).toList

/-- The program header at an offset of a file. -/
def ofFile (file : Array UInt8) (offset : Nat) : Segment where
  kind := field file offset 4
  flags := field file (offset + 4) 4
  offset := field file (offset + 8) 8
  address := (field file (offset + 16) 8).toUInt64
  size := field file (offset + 32) 8

/-- The program headers of a 64-bit ELF file with the lowest byte first, in
the order of the file; `none` if a header is cut or the file is none such. -/
def allOf? : ObjectParser := fun file =>
  let table := field file 32 8
  let count := field file 56 2
  if file.size < 64 then none
  else if (file.extract 0 6).toList ≠ [0x7f, 0x45, 0x4c, 0x46, 2, 1] then none
  else if count = 0 then some []
  else if table + 56 * count ≤ file.size then
    some ((List.range count).map fun i => ofFile file (table + 56 * i))
  else none

/-- The bytes of the segment, if the file has them all. -/
def contents? (s : Segment) (file : Array UInt8) : Option (Array UInt8) :=
  if s.offset + s.size ≤ file.size then some (file.extract s.offset (s.offset + s.size)) else none

/-- The executable segments of a file loaded at `base`, with their addresses.
A segment that the file does not hold in full is left out. -/
def codeAt (base : UInt64) (file : Array UInt8) (segments : List Segment) :
    List (UInt64 × Array UInt8) :=
  let loaded := segments.filter loadable
  let bias := match loaded with
    | [] => 0
    | first :: _ => first.address
  (loaded.filter executable).filterMap fun s =>
    (s.contents? file).map fun code => (base + (s.address - bias), code)

end Segment

/-- Adds the code of a file mapped at `base`.  `report` has the segments of the
file, or is `none` if the file could not be read as one with segments. -/
def Image.addSegments (image : Image) (base : UInt64) (file : Array UInt8)
    (report : Option (List Segment)) : Image :=
  match Segment.codeAt base file (report.getD []) with
  | [] => image.addBytes base file
  | code => code.foldl (fun image (start, bytes) => image.addBytes start bytes) image

/-- Adds the kernel's code mapped at `base`, as a kernel of a 64-bit machine has it. -/
def Image.addVdso (image : Image) (base : UInt64) (file : Array UInt8) : Image :=
  image.addSegments base file (Segment.allOf? file)

end BranchWatch
