import BranchWatch.Tracee.Basic

/-!
# Processes that follow a script

`Tracee.ofScript` is what the kernel answers about a process that makes given
system calls and sends itself given signals, one after the other.

A system call stops the process at its entry and at its exit.  A signal is
reported on the way out of the call that sent it.  The end is reported before it
comes, and then as the final status.
-/

namespace BranchWatch

/-- What a scripted process does. -/
inductive TraceeAction where
  | syscall (request : SyscallRequest)
  /-- Asks for its own number, then sends itself the signal of this number. -/
  | kill (signal : Nat)
  /-- Ignores the signal of this number from now on. -/
  | ignore (signal : Nat)
  /-- Starts a program that makes some calls and ends with a code.  What the
  script says behind this is not done. -/
  | exec (calls : Nat) (code : Int)
  | exit (code : Int)
  deriving DecidableEq, Repr

/-- A death that nobody expects, while the process is stopped. -/
structure SuddenDeath where
  /-- Before the capture is started, or at the entry of a system call. -/
  atEntry : Bool
  /-- At which start of the capture, or at which entry, counted from one. -/
  count : Nat
  /-- Somebody else has waited for the process. -/
  reaped : Bool
  deriving DecidableEq, Repr

/-- The answers to waiting for a process, in order. -/
abbrev Course := List WaitAnswer

namespace Course

/-- The answer of a given status. -/
def status (s : WaitStatus) : WaitAnswer := { status := .ok s }

/-- The stop at the entry of a system call. -/
def entry (pid : Int) (request : SyscallRequest) : WaitAnswer :=
  { status := .ok (.syscallStop pid), registers := .ok request }

/-- A system call from its entry to its exit. -/
def call (pid : Int) (request : SyscallRequest) : Course :=
  [entry pid request, status (.syscallStop pid)]

end Course

namespace SyscallRequest

/-- A request with the given first arguments; the others are zero. -/
def ofArguments (number : UInt64) (given : List UInt64) : SyscallRequest :=
  ⟨number, (given ++ List.replicate 6 0).take 6⟩

def getpid : SyscallRequest := ofArguments 39 []

def kill (pid : Int) (signal : Nat) : SyscallRequest :=
  ofArguments 62 [(Int64.ofInt pid).toUInt64, signal.toUInt64]

def sigaction (signal : Nat) : SyscallRequest := ofArguments 13 [signal.toUInt64]

def execve : SyscallRequest := ofArguments 59 []

def exitGroup (code : Int) : SyscallRequest := ofArguments 231 [(Int64.ofInt code).toUInt64]

/-- The code with which a request ends the process, if it does. -/
def exitCode? (r : SyscallRequest) : Option Int :=
  if r.number = 60 ∨ r.number = 231 then r.arguments.head?.map fun a => (a.toNat % 256 : Nat)
  else none

end SyscallRequest

/-- Whether a process that does nothing about a signal lives on. -/
def Signal.isHarmless (s : Signal) : Bool :=
  s ∈ [.chld, .cont, .urg, .winch, .stop, .tstp, .ttin, .ttou]

/-- Whether a process can choose what a signal does to it. -/
def Signal.isIgnorable (s : Signal) : Bool := s ≠ .kill ∧ s ≠ .stop

namespace Course

/-- The report of the end and the end itself. -/
def ending (pid : Int) (final : WaitStatus) : Course :=
  [status (.traceEvent pid .trap 6), status final]

/-- The process ends by a request. -/
def exit (pid : Int) (request : SyscallRequest) (code : Int) : Course :=
  entry pid request :: ending pid (.exited pid code)

/-- The process ends with a code, of which eight bits are kept. -/
def exitWith (pid code : Int) : Course := exit pid (.exitGroup code) (code % 256)

/-- The course of a process that ignores some signals. -/
def ofActions (pid : Int) (ignored : List Signal) : List TraceeAction → Course
  | [] => exitWith pid 0
  | .exit code :: _ => exitWith pid code
  | .exec calls code :: _ =>
    [entry pid .execve, status (.traceEvent pid .trap ProcessState.execEvent),
        status (.syscallStop pid)]
      ++ (List.replicate calls (call pid .getpid)).flatten ++ exitWith pid code
  | .syscall request :: rest =>
    match request.exitCode? with
    | some code => exit pid request code
    | none => call pid request ++ ofActions pid ignored rest
  | .ignore number :: rest =>
    let more := ((Signal.ofNumber? number).filter (·.isIgnorable)).toList
    call pid (.sigaction number) ++ ofActions pid (more ++ ignored) rest
  | .kill number :: rest =>
    call pid .getpid ++
      match Signal.ofNumber? number with
      | some .kill => entry pid (.kill pid number) :: ending pid (.signaled pid .kill false)
      | some signal =>
        let reports := List.replicate (if signal = .stop then 2 else 1) (.stopped pid signal)
        call pid (.kill pid number) ++ reports.map status ++
          if signal.isHarmless ∨ signal ∈ ignored then ofActions pid ignored rest
          else ending pid (.signaled pid signal false)
      | none =>
        -- Signals of these numbers exist, but they have no name here.
        let reports : Course :=
          if 32 ≤ number ∧ number ≤ 64 then [{ status := .error .invalidArgument }] else []
        call pid (.kill pid number) ++ reports ++ ofActions pid ignored rest

/-- Whether an answer is the stop at a system call. -/
def isSyscallStop (a : WaitAnswer) : Bool :=
  match a.status with
  | .ok (.syscallStop _) => true
  | _ => false

/-- The course up to the stop at a system call with a given number, counted from
one.  At this stop the requests have other answers, and another course
follows. -/
def divertAt (answers : StopAnswers) (later : Course) : Nat → Course → Option Course
  | _, [] => none
  | stops, a :: course =>
    if isSyscallStop a then
      if stops ≤ 1 then some ({ a with toStopAnswers := answers } :: later)
      else (divertAt answers later (stops - 1) course).map (a :: ·)
    else (divertAt answers later stops course).map (a :: ·)

end Course

namespace Tracee

/-- What is to be learnt of a process that was killed. -/
def killedCourse (pid : Int) : Course := [Course.status (.signaled pid .kill false)]

/-- A process with a given course; without `stepping` it does not stop at system
calls. -/
def ofCourse (pid : Int) (stepping : Bool) (course : Course) : Tracee :=
  { pid
    waits := if stepping then course else course.filter (!Course.isSyscallStop ·)
    afterKill := killedCourse pid }

/-- The process dies at a given place, if it comes so far.  The next request
finds it gone; it can still be killed if nobody has waited for it. -/
def dying (t : Tracee) (death : SuddenDeath) : Tracee :=
  let gone : StopAnswers :=
    { registers := .error .noProcess
      resume := some .noProcess
      kill := if death.reaped then some .noProcess else none }
  let later := if death.reaped then [] else killedCourse t.pid
  match death.atEntry, death.count with
  | _, 0 => t
  | false, 1 => { t with first := gone, waits := later }
  | atEntry, count + 1 =>
    let stops := if atEntry then 2 * count + 1 else 2 * count
    { t with waits := (Course.divertAt gone later stops t.waits).getD t.waits }

/-- A process that follows a script.  It starts with one signal ignored, that of
a broken pipe. -/
def ofScript (pid : Int) (stepping : Bool) (death : Option SuddenDeath)
    (actions : List TraceeAction) : Tracee :=
  let tracee := ofCourse pid stepping (.ofActions pid [.pipe] actions)
  match death with
  | some death => tracee.dying death
  | none => tracee

end Tracee

end BranchWatch
