import BranchWatch.Text.Quoted

/-!
# Where the log goes

A log never overwrites a file: if the wanted name is taken, a time is appended
to it.
-/

namespace BranchWatch.CommandLine

/-- A file by its directory and its name there. -/
structure LogFile where
  directory : String
  name : String
  deriving DecidableEq, Repr

namespace LogFile

/-- Leaves out the segments at the end of a path that lead nowhere.  The first
segment says where the path starts and stays.  Segments come last first. -/
def trimSegments : List String → List String
  | "" :: before :: rest => trimSegments (before :: rest)
  | "." :: before :: rest => trimSegments (before :: rest)
  | segments => segments

/-- The path of a directory from its segments, last first. -/
def directoryOf (segments : List String) : String :=
  match trimSegments segments with
  | [] => "."
  | [""] => "/"
  | segments => "/".intercalate segments.reverse

/-- The file at a path.  A path that ends at a root, at the directory it starts
from or one above it is none of a file. -/
def ofPath? (path : String) : Option LogFile :=
  match trimSegments (path.splitOn "/").reverse with
  | "" :: _ | "." :: _ | ".." :: _ | [] => none
  | name :: before => some { directory := directoryOf before, name }

def path (f : LogFile) : String :=
  (if f.directory = "/" then "/" else f.directory ++ "/") ++ f.name

/-- The names on the way from the working directory to the file; none if the way
starts at the root. -/
def route (f : LogFile) : List String :=
  if f.directory.startsWith "/" then []
  else (f.path.splitOn "/").filter fun s => s ≠ "" ∧ s ≠ "."

/-- The file that is opened for a path.  `taken` says which files are there, and
`stamp` is the time to append. -/
def choose? (taken : LogFile → Bool) (stamp path : String) : Option LogFile :=
  match ofPath? path with
  | none => none
  | some f =>
    if taken f then
      let stamped := { f with name := f.name ++ stamp }
      if taken stamped then none else some stamped
    else some f

end LogFile

end BranchWatch.CommandLine
