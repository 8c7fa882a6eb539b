import BranchWatch.System.Errno
import BranchWatch.System.Signal

/-!
# The state of a traced process

A process is waited for, and the kernel answers with a status.  `ProcessState` is
what such an answer means for the one who traces the process: it is stopped, and
requests can be made, or it has ended.
-/

namespace BranchWatch

/-- How a process ended. -/
inductive ExitStatus where
  | exited (code : Int)
  | signaled (signal : Signal) (coreDumped : Bool)
  deriving DecidableEq, Repr

namespace ExitStatus

/-- Whether the process ended with the code zero.  Death by a signal is never a
success. -/
def success : ExitStatus → Bool
  | exited code => code = 0
  | signaled .. => false

def code? : ExitStatus → Option Int
  | exited code => some code
  | signaled .. => none

def signal? : ExitStatus → Option Signal
  | exited _ => none
  | signaled signal _ => some signal

def message : ExitStatus → String
  | exited code => "exited with code " ++ toString code
  | signaled signal true => "killed by " ++ signal.name ++ " (core dumped)"
  | signaled signal false => "killed by " ++ signal.name

end ExitStatus

/-- What the kernel answers to waiting for a process. -/
inductive WaitStatus where
  | exited (pid code : Int)
  | signaled (pid : Int) (signal : Signal) (coreDumped : Bool)
  /-- A signal is about to be delivered.  A process that asked to be traced is
  reported in the same way when it is stopped together with its group. -/
  | stopped (pid : Int) (signal : Signal)
  /-- An event that tracing was asked to report. -/
  | traceEvent (pid : Int) (signal : Signal) (event : Int)
  /-- The process enters or leaves a system call. -/
  | syscallStop (pid : Int)
  | continued (pid : Int)
  | stillAlive
  deriving DecidableEq, Repr

/-- Why a traced process is stopped. -/
inductive StopEvent where
  /-- It has started a new program; its thread was known by this number. -/
  | exec (former : Int)
  /-- It is about to end. -/
  | exit
  /-- It is stopped together with its group, if the kernel reports this as an
  event of its own. -/
  | stop
  /-- It enters or leaves a system call. -/
  | syscall
  /-- A signal is about to be delivered, or it has stopped the group of a process
  that asked to be traced. -/
  | signal (s : Signal)
  /-- An event that nobody asked for. -/
  | other (event : Int)
  deriving DecidableEq, Repr

/-- The event as a name with its fields. -/
def StopEvent.describe : StopEvent → String
  | exec former => "Exec(Pid(" ++ toString former ++ "))"
  | exit => "Exit"
  | stop => "Stop"
  | syscall => "Syscall"
  | signal s => "Signal(" ++ s.name ++ ")"
  | other event => "Other(" ++ toString event ++ ")"

/-- Why a request to a traced process fails. -/
inductive TraceeError where
  | errno (e : Errno)
  /-- The process died while it was held to be stopped.  It remains to be waited
  for. -/
  | died (pid : Int)
  deriving DecidableEq, Repr

namespace TraceeError

/-- The name of the kind of error. -/
def kind : TraceeError → String
  | errno _ => "Errno"
  | died _ => "Died"

def message : TraceeError → String
  | errno e => e.message
  | died pid => "tracee " ++ toString pid ++ " is a zombie"

/-- What a failed request to a stopped process means.  The process is stopped
and traced, so if it is not found, it has died. -/
def ofRequest (pid : Int) (e : Errno) : TraceeError :=
  if e = .noProcess then died pid else errno e

end TraceeError

/-- What a process that was waited for is doing. -/
inductive ProcessState where
  | stopped (pid : Int) (event : StopEvent)
  | exited (pid : Int) (status : ExitStatus)
  deriving DecidableEq, Repr

namespace ProcessState

def pid : ProcessState → Int
  | stopped pid _ | exited pid _ => pid

def message : ProcessState → String
  | stopped pid event => "pid " ++ toString pid ++ " stopped (" ++ event.describe ++ ")"
  | exited pid status => "pid " ++ toString pid ++ " " ++ status.message

/-- The complaint of one who took the process for stopped. -/
def notStopped (s : ProcessState) : String := "expected a stopped process, got " ++ s.message

/-- The complaint of one who took the process for ended. -/
def notExited (s : ProcessState) : String := "expected an exited process, got " ++ s.message

/-- The number of the event that reports a new program. -/
def execEvent : Int := 4

/-- The event of a given number.  For a new program the kernel is asked for the
event's message, and `message` is its answer. -/
def ofEvent (pid : Int) (message : Except Errno Int) (event : Int) :
    Except TraceeError ProcessState :=
  if event = execEvent then
    match message with
    | .ok former => .ok (stopped pid (.exec former))
    | .error e => .error (.ofRequest pid e)
  else if event = 6 then .ok (stopped pid .exit)
  else if event = 128 then .ok (stopped pid .stop)
  else .ok (stopped pid (.other event))

/-- What an answer of the kernel means.  The last two answers are given only if
they are asked for, which nobody does. -/
def ofStatus (message : Except Errno Int) : WaitStatus → Except TraceeError ProcessState
  | .exited pid code => .ok (exited pid (.exited code))
  | .signaled pid signal coreDumped => .ok (exited pid (.signaled signal coreDumped))
  | .stopped pid signal => .ok (stopped pid (.signal signal))
  | .traceEvent pid _ event => ofEvent pid message event
  | .syscallStop pid => .ok (stopped pid .syscall)
  | .continued _ | .stillAlive => .error (.errno .invalidArgument)

end ProcessState

end BranchWatch
