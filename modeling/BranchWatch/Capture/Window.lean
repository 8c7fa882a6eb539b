import BranchWatch.Capture.Error

/-!
# Windows of the trace

A window is what was captured between switching the capture on and off.
`TraceCapture` is what a source of windows can do.
-/

namespace BranchWatch

/-- The bytes of a window. -/
structure TraceWindow where
  bytes : List UInt8
  /-- The ring was full.  It is not overwritten, so the newest packets are
  missing. -/
  truncated : Bool
  deriving DecidableEq, Repr

/-- A window without bytes. -/
def TraceWindow.empty : TraceWindow := ⟨[], false⟩

/-- Sources of windows.  Each operation also gives the source as it is then. -/
class TraceCapture (κ : Type) where
  /-- Drops the last window and starts to capture.  While the capture is on, it
  does nothing. -/
  enable : κ → Except CollectorError Unit × κ
  /-- Stops to capture.  While the capture is off, it does nothing. -/
  disable : κ → Except CollectorError Unit × κ
  /-- What was captured; it has a meaning only while the capture is off. -/
  window : κ → TraceWindow

end BranchWatch
