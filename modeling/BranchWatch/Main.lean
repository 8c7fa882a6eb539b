import BranchWatch.CommandLine.Ending
import Std.Time.Format
import Std.Time.Zoned

/-!
# The program

Reads its arguments, the environment variables they ask for and the time, and
writes what the library answers.
-/

namespace BranchWatch.CommandLine

/-- The time as it is appended to the name of a file. -/
def stampNow : IO String := do
  let now ← Std.Time.PlainDateTime.now
  pure (now.format ".uuuuMMdd.HHmmss.SSSSSSSSS")

/-- The environment as far as the arguments ask for it. -/
def readSurroundings (arguments : List String) : IO Surroundings := do
  let names := Reading.logFileVariable :: namesAskedFor arguments
  let known ← names.filterMapM fun name => do
    pure ((← IO.getEnv name).map fun value => (name, value))
  pure fun name => known.lookup name

/-- Whether a file can be opened for reading. -/
def isThere (f : LogFile) : IO Bool := do
  try
    let _ ← IO.FS.Handle.mk f.path .read
    pure true
  catch _ => pure false

/-- How the monitor ends, called with some arguments. -/
def endingOf (arguments : List String) : IO Ending := do
  match Arguments.parse (← readSurroundings arguments) arguments with
  | .error e => pure (.ofUsageError e)
  | .ok a =>
    let wanted := (a.logFile.bind LogFile.ofPath?).toList
    let taken ← wanted.filterM fun f => isThere f
    pure (.ofArguments taken.contains (← stampNow) a)

end BranchWatch.CommandLine

def main (arguments : List String) : IO UInt32 := do
  let ending ← BranchWatch.CommandLine.endingOf arguments
  if let some f := ending.logFile then
    let _ ← IO.FS.Handle.mk f.path .append
  IO.print ending.output
  for line in ending.complaint do
    IO.eprintln line
  pure ending.code.toUInt32
