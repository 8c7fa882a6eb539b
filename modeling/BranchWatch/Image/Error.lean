import BranchWatch.Text.Hex
import BranchWatch.Text.Quoted

/-!
# Why an image cannot be built
-/

namespace BranchWatch

/-- Why the list of a process's mappings cannot be read. -/
inductive MappingsFault where
  /-- The process's directory is not there. -/
  | notFound (path : String)
  | other (text : String)
  deriving DecidableEq, Repr

def MappingsFault.message : MappingsFault → String
  | notFound path => "File not found: " ++ path
  | other text => "Unknown error " ++ text

/-- The causes end with the words of the system. -/
inductive ImageError where
  | mappings (pid : Int) (fault : MappingsFault)
  | file (path cause : String)
  | memory (address : UInt64) (cause : String)
  deriving DecidableEq, Repr

def ImageError.message : ImageError → String
  | mappings pid fault => "reading the mappings of pid " ++ toString pid ++ ": " ++ fault.message
  | file path cause => "mapping " ++ Quoted.render path ++ ": " ++ cause
  | memory address cause =>
    "reading tracee memory at " ++ Hex.number address.toNat ++ ": " ++ cause

end BranchWatch
