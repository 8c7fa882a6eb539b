import BranchWatch.Analysis.Analyzer
import BranchWatch.Analysis.WindowBuffer
import BranchWatch.Capture.Config
import BranchWatch.Tracee.Status

/-!
# Settings of the monitor, and what ends a run
-/

namespace BranchWatch

/-- Optional output. -/
structure Diagnostics where
  /-- Log each system call at which the process stops. -/
  traceSyscalls : Bool := false
  /-- Log each decoded instruction. -/
  logInstructions : Bool := false
  /-- Wait for a line of input after each window. -/
  step : Bool := false
  /-- Capture the whole run, without stops at system calls and without
  decoding, and tell how long it took. -/
  traceTimeOnly : Bool := false
  /-- Log how long the analysis of each window took. -/
  timeAnalysis : Bool := false
  /-- Report where the event lives. -/
  eventInfo : Bool := false
  deriving DecidableEq, Repr

structure MonitorConfig where
  capture : CaptureConfig := {}
  analyzer : Analyzer := {}
  diagnostics : Diagnostics := {}
  /-- The most instructions kept for one window. -/
  windowCapacity : Nat := 1000000

/-- Which setting of the monitor cannot be used. -/
inductive MonitorConfigFault where
  | windowCapacity
  /-- Anything else, in words. -/
  | named (text : String)
  deriving DecidableEq, Repr

def MonitorConfigFault.message : MonitorConfigFault → String
  | windowCapacity => "window capacity must be at least one instruction"
  | named text => text

/-- What ends a run before its time. -/
inductive MonitorError where
  /-- The trace cannot be captured. -/
  | collector (e : CollectorError)
  /-- The process cannot be controlled, although it has not died. -/
  | tracee (e : TraceeError)
  /-- The program cannot be started; the cause in the words of the system. -/
  | spawn (program cause : String)
  /-- The process ended before its first stop. -/
  | earlyExit (pid : Int) (status : ExitStatus)
  | invalidConfig (fault : MonitorConfigFault)
  /-- Input or output failed; the cause in the words of the system. -/
  | io (cause : String)
  deriving DecidableEq

/-- The name of the kind of error. -/
def MonitorError.kind : MonitorError → String
  | collector _ => "Collector"
  | tracee _ => "Tracee"
  | spawn .. => "Spawn"
  | earlyExit .. => "EarlyExit"
  | invalidConfig _ => "InvalidConfig"
  | io _ => "Io"

def MonitorError.message : MonitorError → String
  | collector e => e.message
  | tracee e => e.message
  | spawn program cause => "failed to spawn " ++ program ++ ": " ++ cause
  | earlyExit pid status =>
    "tracee " ++ toString pid ++ " exited before it could be traced (" ++ status.message ++ ")"
  | invalidConfig fault => "invalid configuration: " ++ fault.message
  | io cause => cause

def MonitorConfig.validate (c : MonitorConfig) : Except MonitorError Unit :=
  match c.capture.validate with
  | .error e => .error (.collector e)
  | .ok () =>
    if c.windowCapacity = 0 then .error (.invalidConfig .windowCapacity) else .ok ()

end BranchWatch
