import BranchWatch.Capture.Window
import BranchWatch.Walk.Decoder

/-!
# Captures and decoders that follow a script

A run can be tried without a tracing processor: `ScriptedCapture` hands out
windows from a list, and `ScriptedDecoder` gives the items of a list whatever the
bytes of a window are.
-/

namespace BranchWatch

/-! ## Captures -/

structure ScriptedCapture where
  /-- The windows that the next stops bring; the last one stays. -/
  windows : List TraceWindow
  current : TraceWindow := .empty
  /-- How the start with a given number fails, counted from one. -/
  enableFailure : Nat → Option CollectorError := fun _ => none
  /-- How the stop with a given number fails, counted from one. -/
  disableFailure : Nat → Option CollectorError := fun _ => none
  enables : Nat := 0
  disables : Nat := 0

namespace ScriptedCapture

/-- A capture with the same window every time. -/
def constant (bytes : List UInt8) : ScriptedCapture := { windows := [⟨bytes, false⟩] }

def start (c : ScriptedCapture) : Except CollectorError Unit × ScriptedCapture :=
  let c := { c with enables := c.enables + 1 }
  match c.enableFailure c.enables with
  | some e => (.error e, c)
  | none => (.ok (), c)

def stop (c : ScriptedCapture) : Except CollectorError Unit × ScriptedCapture :=
  let (current, windows) := match c.windows with
    | [] => (c.current, [])
    | window :: later => (window, later)
  let c := { c with disables := c.disables + 1, current, windows }
  match c.disableFailure c.disables with
  | some e => (.error e, c)
  | none => (.ok (), c)

instance : TraceCapture ScriptedCapture where
  enable := start
  disable := stop
  window := current

end ScriptedCapture

/-! ## Decoders -/

structure ScriptedDecoder where
  /-- The items of the next windows. -/
  windows : List (List Item) := []
  /-- The instructions of each window behind those; without them there is
  nothing to decode. -/
  fallback : Option (List InstructionClass) := none
  initializations : Nat := 0
  resyncs : Nat := 0

namespace ScriptedDecoder

/-- Every window is a system call made from a called function. -/
def consistent : ScriptedDecoder := { fallback := some [.nearCall, .farTransfer] }

/-- Items that only carry classes. -/
def synthetic (classes : List InstructionClass) : List Item :=
  classes.map fun c => .ok (.synthetic c)

/-- The next window of the script.  Without bytes there is nothing to decode, and
the script does not go on. -/
def openNext (d : ScriptedDecoder) (bytes : List UInt8) : Opening ScriptedDecoder :=
  if bytes.isEmpty then .refused .endOfStream d
  else
    match d.windows, d.fallback with
    | items :: windows, _ => .opened (.ofList { d with windows } items)
    | [], some classes => .opened (.ofList d (synthetic classes))
    | [], none => .refused .endOfStream d

instance : TraceDecoder ScriptedDecoder where
  restart d := openNext { d with initializations := d.initializations + 1 }
  resync d := openNext { d with resyncs := d.resyncs + 1 }

end ScriptedDecoder

end BranchWatch
