import BranchWatch.Image.Error
import BranchWatch.Image.Vdso

/-!
# The image of a running process

An image of a process holds its executable mappings.  Files are opened by
name and kept open, so that a later build finds the file under the name as it
was first seen.  Code without a file is copied from the process's memory.

A file that cannot be opened or anonymous memory that cannot be read only
leaves a hole.  A build fails if the list of mappings or the memory cannot be
opened, or if the kernel's own code cannot be read.
-/

namespace BranchWatch

/-- What stands behind a mapping. -/
inductive Backing where
  | file (path : String)
  /-- The kernel's code in user space. -/
  | vdso
  | anonymous
  /-- Memory that cannot be read, or that holds no code. -/
  | other
  deriving DecidableEq, Repr

/-- A range of a process's addresses. -/
structure Mapping where
  start : UInt64
  length : Nat
  executable : Bool
  offset : Nat
  backing : Backing
  deriving DecidableEq, Repr

/-- What can be learnt about a process at one moment. -/
structure ProcessView where
  mappings : Except MappingsFault (List Mapping)
  /-- The attempt to open the memory; the cause if it fails. -/
  openMemory : Except String Unit
  readMemory : UInt64 → Nat → Except String (Array UInt8)
  openFile : String → Except String (Array UInt8)

/-- Builds images of one process; keeps the files it opened. -/
structure ProcessImages where
  pid : Int
  /-- Tells the segments of the kernel's code. -/
  parser : ObjectParser := Segment.allOf?
  files : List (String × Array UInt8) := []

namespace ProcessImages

/-- The contents of a file, from the files kept or by opening it. -/
def file (images : ProcessImages) (view : ProcessView) (path : String) :
    Except String (Array UInt8) × ProcessImages :=
  match images.files.lookup path with
  | some contents => (.ok contents, images)
  | none =>
    match view.openFile path with
    | .ok contents => (.ok contents, { images with files := (path, contents) :: images.files })
    | .error cause => (.error cause, images)

/-- Adds one mapping to an image. -/
def addMapping (view : ProcessView) (images : ProcessImages) (image : Image) (m : Mapping) :
    Except ImageError Image × ProcessImages :=
  if m.executable then
    match m.backing with
    | .file path =>
      match images.file view path with
      | (.ok contents, images) => (.ok (image.addMapped m.start contents m.offset m.length), images)
      | (.error _, images) => (.ok image, images)
    | .vdso =>
      match view.readMemory m.start m.length with
      | .ok bytes => (.ok (image.addSegments m.start bytes (images.parser bytes)), images)
      | .error cause => (.error (.memory m.start cause), images)
    | .anonymous =>
      match view.readMemory m.start m.length with
      | .ok bytes => (.ok (image.addBytes m.start bytes), images)
      | .error _ => (.ok image, images)
    | .other => (.ok image, images)
  else (.ok image, images)

/-- Adds mappings one after the other, until one fails. -/
def addMappings (view : ProcessView) (images : ProcessImages) (image : Image) :
    List Mapping → Except ImageError Image × ProcessImages
  | [] => (.ok image, images)
  | m :: rest =>
    match addMapping view images image m with
    | (.ok image, images) => addMappings view images image rest
    | (.error e, images) => (.error e, images)

/-- The image of the process as it is now. -/
def build (images : ProcessImages) (view : ProcessView) :
    Except ImageError Image × ProcessImages :=
  match view.mappings with
  | .error fault => (.error (.mappings images.pid fault), images)
  | .ok mappings =>
    match view.openMemory with
    | .error cause => (.error (.file ("/proc/" ++ toString images.pid ++ "/mem") cause), images)
    | .ok () => addMappings view images .empty mappings

end ProcessImages

end BranchWatch
