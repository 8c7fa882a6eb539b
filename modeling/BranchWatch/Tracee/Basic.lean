import BranchWatch.System.Syscall
import BranchWatch.Tracee.Status

/-!
# Traced processes

A traced process is known by what the kernel answers: to waiting for it, and to
the requests that are made while it is stopped.  A `Tracee` lists these answers,
so a statement about all tracees covers every behaviour of the process and every
way in which it can disappear.  At a stop a line may also be read, and whether
there is one is listed with the answers.

The list is finite.  Behind it there is nothing left to wait for.
-/

namespace BranchWatch

/-- The answers to what can be asked for at one stop. -/
structure StopAnswers where
  /-- The message of the event that is reported. -/
  message : Except Errno Int := .ok 0
  /-- The system call at which the process stands. -/
  registers : Except Errno SyscallRequest := .ok ⟨0, List.replicate 6 0⟩
  /-- How letting the process run fails, if it does. -/
  resume : Option Errno := none
  /-- How killing the process fails, if it does. -/
  kill : Option Errno := none
  /-- Why no line can be read while the process stands there, if so. -/
  unreadable : Option String := none

/-- An answer to waiting, and the answers at the stop that it reports. -/
structure WaitAnswer extends StopAnswers where
  status : Except Errno WaitStatus

/-- What the answer means. -/
def WaitAnswer.state (a : WaitAnswer) (status : WaitStatus) : Except TraceeError ProcessState :=
  ProcessState.ofStatus a.message status

/-- A process that is stopped before its first instruction under trace. -/
structure Tracee where
  pid : Int
  /-- The answers at the first stop. -/
  first : StopAnswers := {}
  /-- The answers to waiting. -/
  waits : List WaitAnswer
  /-- The answers to waiting once the process has been killed. -/
  afterKill : List WaitAnswer := []

end BranchWatch
