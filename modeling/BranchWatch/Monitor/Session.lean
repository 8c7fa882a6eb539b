import BranchWatch.Capture.Window
import BranchWatch.Monitor.Config
import BranchWatch.Monitor.Notice
import BranchWatch.Tracee.Basic
import BranchWatch.Walk.Decoder

/-!
# Sessions

A session is one run of the monitor: the process, the capture and the decoder as
they are at a moment, what has been counted, and the list of everything that was
done so far.  A run that fails leaves its session too, so the list says what a
run does in either case.
-/

namespace BranchWatch

/-- The stretches of a process between two stops at system calls. -/
inductive Stretch where
  /-- From the exit of a system call to the entry of the next one. -/
  | user
  /-- From the entry of a system call to its exit. -/
  | kernel
  /-- The whole run, when it does not stop at system calls. -/
  | whole
  /-- After the process has died. -/
  | ending
  deriving DecidableEq, Repr

/-- Something that a run does or learns. -/
inductive Act (δ : Type) where
  | enabled (answer : Except CollectorError Unit)
  | disabled (answer : Except CollectorError Unit)
  | readWindow (window : TraceWindow)
  /-- A window was given to the decoder; `anew` says whether the decoder was
  told to look at the code again. -/
  | decoded (anew : Bool) (opening : Opening δ)
  /-- What waiting for the process has told. -/
  | waited (state : Except TraceeError ProcessState)
  | resumed (stretch : Stretch) (signal : Option Signal) (failure : Option Errno)
  | killed (failure : Option Errno)
  | noted (notice : Notice)

/-- One run of the monitor at a moment. -/
structure Session (κ δ : Type) where
  config : MonitorConfig
  pid : Int
  /-- The answers to waiting once the process has been killed. -/
  afterKill : List WaitAnswer
  capture : κ
  decoder : δ
  /-- The instructions of the last window that was analysed; used again for the next one. -/
  buffer : WindowBuffer
  /-- The code may have changed, so the decoder must look at it again. -/
  decodeAnew : Bool := true
  report : Report := {}
  /-- Everything that was done, the latest first. -/
  acts : List (Act δ) := []

namespace Session

variable {κ δ : Type}

/-- Before the first step. -/
def start (config : MonitorConfig) (capture : κ) (decoder : δ) (tracee : Tracee) :
    Session κ δ :=
  { config, capture, decoder
    buffer := .empty config.windowCapacity
    pid := tracee.pid
    afterKill := tracee.afterKill }

/-- What was said, in order. -/
def notices (s : Session κ δ) : List Notice :=
  (s.acts.filterMap fun
    | .noted notice => some notice
    | _ => none).reverse

/-- The lines of all notices down to a level, with the given words for the
process and for times. -/
def log (s : Session κ δ) (limit : NoticeLevel) (pid time : String) : List String :=
  (s.notices.filter (·.level.isWithin limit)).map (·.render pid time)

/-- How often the capture was asked to start. -/
def enables (s : Session κ δ) : Nat :=
  s.acts.countP fun
    | .enabled _ => true
    | _ => false

/-- How often the capture was asked to stop. -/
def disables (s : Session κ δ) : Nat :=
  s.acts.countP fun
    | .disabled _ => true
    | _ => false

end Session

end BranchWatch
