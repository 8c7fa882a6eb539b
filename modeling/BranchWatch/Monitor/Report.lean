import BranchWatch.Analysis.Verdict
import BranchWatch.Capture.Collector
import BranchWatch.Tracee.Status

/-!
# Reports

The report of a run: how it ended, and what was counted on the way.
-/

namespace BranchWatch

/-- How a run ended. -/
inductive Outcome where
  /-- The process ran to its end. -/
  | noAttackFound
  /-- A window was suspicious, and the process was killed. -/
  | attackDetected (pid : Int) (reason : Reason)
  deriving DecidableEq, Repr

structure Report where
  outcome : Outcome := .noAttackFound
  /-- How the process ended, if anybody was there to tell. -/
  exitStatus : Option ExitStatus := none
  /-- Windows that were closed by the entry to a system call. -/
  windows : Nat := 0
  /-- Instructions decoded in all windows. -/
  instructions : Nat := 0
  /-- Windows with more instructions than are kept. -/
  abandonedWindows : Nat := 0
  /-- Windows that could not be decoded at all. -/
  skippedWindows : Nat := 0
  /-- Errors from which the decoder recovered. -/
  decodeErrors : Nat := 0
  eventInfo : Option EventInfo := none
  deriving DecidableEq, Repr

end BranchWatch
