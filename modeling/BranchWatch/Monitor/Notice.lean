import BranchWatch.Monitor.Report
import BranchWatch.System.Syscall
import BranchWatch.Walk.Error
import BranchWatch.Analysis.WindowBuffer

/-!
# Notices

What a run says while it goes on.  A notice has a level, a text and named
values; the process and the time it took are named by texts that the reader of
the notice chooses.
-/

namespace BranchWatch

/-- How important a notice is, the most important first. -/
inductive NoticeLevel where
  | warn
  | info
  | debug
  | trace
  deriving DecidableEq, Repr

namespace NoticeLevel

def all : List NoticeLevel := [warn, info, debug, trace]

def name : NoticeLevel → String
  | warn => "WARN"
  | info => "INFO"
  | debug => "DEBUG"
  | trace => "TRACE"

/-- The level of a given name; small letters are as good as capitals. -/
def ofName? (s : String) : Option NoticeLevel := all.find? (·.name = s.toUpper)

/-- Whether a notice of this level is wanted by one who asked for `limit`. -/
def isWithin (level limit : NoticeLevel) : Bool := all.idxOf level ≤ all.idxOf limit

end NoticeLevel

inductive Notice where
  /-- A signal goes on to the process. -/
  | delivering (signal : Signal)
  /-- The process has started a new program. -/
  | calledExec
  /-- The system call at which the process stands. -/
  | syscall (request : SyscallRequest)
  | ringFull (window : Nat)
  | emptyWindow (window : Nat)
  | undecodable (window : Nat) (e : DecodeError)
  | instruction (window : Nat) (record : InstructionRecord)
  | decodeError (window : Nat) (e : DecodeError)
  | abandoned (window : Nat) (e : WindowOverflow)
  | analyzed (window instructions : Nat)
  | suspicious (window : Nat) (reason : Reason)
  /-- A line of input is awaited. -/
  | awaitingEnter
  /-- A run without analysis has ended. -/
  | timed
  | finished (report : Report)
  | openedCollector (info : EventInfo)
  deriving DecidableEq

namespace Notice

def level : Notice → NoticeLevel
  | ringFull _ | undecodable .. | abandoned .. | suspicious .. => .warn
  | calledExec | syscall _ | analyzed .. | awaitingEnter | timed | finished _
  | openedCollector _ => .info
  | delivering _ | emptyWindow _ | decodeError .. => .debug
  | instruction .. => .trace

/-- The outcome as a name with its fields. -/
def describeOutcome (pid : String) : Outcome → String
  | .noAttackFound => "NoAttackFound"
  | .attackDetected _ reason =>
    "AttackDetected \x7b pid: Pid(" ++ pid ++ "), reason: " ++ reason.describe ++ " \x7d"

/-- The text, with the given words for the process and a time. -/
def message (pid time : String) : Notice → String
  | delivering signal => "delivering " ++ signal.name ++ " to tracee " ++ pid
  | calledExec => "tracee " ++ pid ++ " called execve"
  | syscall request => "[" ++ pid ++ "] " ++ request.describe
  | ringFull _ => "trace ring filled up, window is missing its newest packets"
  | emptyWindow _ => "empty trace window"
  | undecodable _ e => "cannot decode window: " ++ e.message
  | instruction _ record =>
    Hex.number record.ip.toNat ++ " " ++ record.cls.name ++ " " ++ Hex.byteList record.bytes
  | decodeError _ e => "decode error: " ++ e.message
  | abandoned _ e => e.message ++ ", abandoning window"
  | analyzed .. => "analysis took " ++ time
  | suspicious _ reason => reason.message ++ ", killing tracee"
  | awaitingEnter => "window done, press enter to continue"
  | timed => "tracee " ++ pid ++ " ran for " ++ time ++ " under trace"
  | finished report => "run finished: " ++ describeOutcome pid report.outcome
  | openedCollector info => "collector for tracee " ++ pid ++ ":\n" ++ info.message

/-- The named values, in the order of their texts. -/
def fields (pid : String) : Notice → List (String × String)
  | ringFull window | emptyWindow window | undecodable window _ | instruction window _
  | decodeError window _ | abandoned window _ => [("window", toString window)]
  | analyzed window instructions =>
    [("instructions", toString instructions), ("window", toString window)]
  | suspicious window _ => [("pid", pid), ("window", toString window)]
  | finished report =>
    [("instructions", toString report.instructions), ("pid", pid),
      ("windows", toString report.windows)]
  | delivering _ | calledExec | syscall _ | awaitingEnter | timed | openedCollector _ => []

/-- The notice as a line. -/
def render (pid time : String) (n : Notice) : String :=
  n.level.name ++ " " ++ n.message pid time
    ++ String.join ((n.fields pid).map fun (name, value) => " " ++ name ++ "=" ++ value)

end Notice

end BranchWatch
