import BranchWatch.Number.Floating
import BranchWatch.System.Errno
import BranchWatch.Text.Quoted

/-!
# What can go wrong in capturing a trace
-/

namespace BranchWatch

/-- The two mappings of an event. -/
inductive Region where
  /-- The control page and the data behind it. -/
  | base
  /-- The ring that the processor writes packets to. -/
  | aux
  deriving DecidableEq, Repr

def Region.name : Region → String
  | base => "control/data"
  | aux => "aux"

/-- Why the machine cannot produce traces. -/
inductive ProbeFault where
  /-- The file that tells the type of the event cannot be read. -/
  | unreadable (path cause : String)
  /-- That file holds something else. -/
  | malformedType (text : String)
  | notIntel
  | noProcessorTrace
  deriving DecidableEq, Repr

/-- The name of the kind of fault. -/
def ProbeFault.kind : ProbeFault → String
  | unreadable .. => "NoPmu"
  | malformedType _ => "BadPmuType"
  | notIntel => "NotIntel"
  | noProcessorTrace => "NoProcessorTrace"

def ProbeFault.message : ProbeFault → String
  | unreadable path cause => "cannot read " ++ path ++ ": " ++ cause
  | malformedType text => "malformed PMU type " ++ Quoted.render text
  | notIntel => "CPU vendor is not Intel"
  | noProcessorTrace => "CPU does not report Intel Processor Trace"

/-- Why traces are not available. -/
inductive Unavailable where
  | probe (fault : ProbeFault)
  /-- The kernel does not know the event. -/
  | rejected
  /-- Anything else, in words. -/
  | named (text : String)
  deriving DecidableEq, Repr

def Unavailable.message : Unavailable → String
  | probe fault => fault.message
  | rejected => "the kernel rejected the intel_pt event"
  | named text => text

/-- Which setting of a capture cannot be used. -/
inductive CaptureConfigFault where
  | dataPages (pages : Nat)
  | auxPages (pages : Nat)
  | wakeupRatio (ratio : Float)
  | openAttempts
  /-- Anything else, in words. -/
  | named (text : String)
  deriving DecidableEq

def CaptureConfigFault.message : CaptureConfigFault → String
  | dataPages pages => "data_pages must be a power of two, got " ++ toString pages
  | auxPages pages => "aux_pages must be a power of two, got " ++ toString pages
  | wakeupRatio ratio => "aux_wakeup_ratio must be in (0, 1], got " ++ Floating.render ratio
  | openAttempts => "open_attempts must be at least 1"
  | named text => text

/-- Why a collector cannot be opened or used. -/
inductive CollectorError where
  | unsupported (cause : Unavailable)
  /-- Somebody else held the device at every attempt. -/
  | busy (attempts : Nat)
  | mappingFailed (region : Region) (errno : Errno)
  | invalidConfig (fault : CaptureConfigFault)
  | closed
  | errno (e : Errno)
  deriving DecidableEq

/-- The name of the kind of error. -/
def CollectorError.kind : CollectorError → String
  | unsupported _ => "Unsupported"
  | busy _ => "ResourceBusy"
  | mappingFailed .. => "MappingFailed"
  | invalidConfig _ => "InvalidConfig"
  | closed => "Closed"
  | errno _ => "Errno"

def CollectorError.message : CollectorError → String
  | unsupported cause => "Intel PT is not available: " ++ cause.message
  | busy attempts => "trace facility still busy after " ++ toString attempts ++ " attempts"
  | mappingFailed region e => "failed to map the " ++ region.name ++ " region: " ++ e.message
  | invalidConfig fault => "invalid collector configuration: " ++ fault.message
  | closed => "the collector has been closed"
  | errno e => e.message

/-- What a collector holds and gives back. -/
inductive Resource where
  | mapping (region : Region)
  | descriptor
  deriving DecidableEq, Repr

/-- The name of the kind of resource. -/
def Resource.kind : Resource → String
  | mapping .base => "Base"
  | mapping .aux => "Aux"
  | descriptor => "Descriptor"

/-- The resource of a given kind. -/
def Resource.ofKind? (s : String) : Option Resource :=
  [mapping .base, mapping .aux, descriptor].find? (·.kind = s)

def Resource.name : Resource → String
  | mapping region => region.name ++ " mapping"
  | descriptor => "perf fd"

/-- What could not be given back, in the order of the attempts. -/
structure CloseError where
  failures : List (Resource × Errno)
  deriving DecidableEq, Repr

def CloseError.message (e : CloseError) : String :=
  "failed to release " ++ ", ".intercalate
    (e.failures.map fun (resource, errno) => resource.name ++ " (" ++ errno.message ++ ")")

end BranchWatch
