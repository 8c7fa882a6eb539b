import BranchWatch.Monitor.Session

/-!
# The run

The process runs from one system call to the next.  From the exit of a system
call to the entry of the next one the capture is on; while the process stands at
the entry, the window is decoded and analysed.  From the entry to the exit the
capture is off, so windows hold only code of the process itself.  A suspicious
window ends the run, and the process is killed.

Signals and other events on the way are passed on.  The process may disappear at
any time, which ends the run but is not an error.

The run follows the answers to waiting, one by one, and so it ends.
-/

namespace BranchWatch

/-- Steps of a run. -/
abbrev RunStep (κ δ : Type) := EStateM MonitorError (Session κ δ)

namespace RunStep

variable {κ δ : Type}

def record (a : Act δ) : RunStep κ δ Unit :=
  modify fun s => { s with acts := a :: s.acts }

def note (n : Notice) : RunStep κ δ Unit := record (.noted n)

def failOnError : Except CollectorError Unit → RunStep κ δ Unit
  | .ok () => pure ()
  | .error e => throw (.collector e)

/-- Drops the last window and starts the capture. -/
def enable [TraceCapture κ] : RunStep κ δ Unit := do
  let answer ← modifyGet fun s =>
    let (answer, capture) := TraceCapture.enable s.capture
    (answer, { s with capture })
  record (.enabled answer)
  failOnError answer

/-- Stops the capture. -/
def disable [TraceCapture κ] : RunStep κ δ Unit := do
  let answer ← modifyGet fun s =>
    let (answer, capture) := TraceCapture.disable s.capture
    (answer, { s with capture })
  record (.disabled answer)
  failOnError answer

/-- Lets the process run from a stop, and tells how this fails if it does. -/
def resume (stop : StopAnswers) (stretch : Stretch) (signal : Option Signal) :
    RunStep κ δ (Option Errno) := do
  record (.resumed stretch signal stop.resume)
  return stop.resume

/-- What an answer to waiting means. -/
def interpret (a : WaitAnswer) (status : WaitStatus) :
    RunStep κ δ (Except TraceeError ProcessState) := do
  record (.waited (a.state status))
  return a.state status

/-- An error of the process.  If nobody is there to wait for, somebody else has
waited, and nothing is known about the end. -/
def lost (e : Errno) : RunStep κ δ (Option ExitStatus) :=
  if e = .noChild then pure none else throw (.tracee (.errno e))

/-- Waits for the end of a process that has died.  It may still stop on the way;
signals are passed on, except the one that stops it. -/
def reap : List WaitAnswer → RunStep κ δ (Option ExitStatus)
  | [] => pure none
  | a :: waits =>
    match a.status with
    | .error e => if e = .interrupted then reap waits else lost e
    | .ok status => do
      match ← interpret a status with
      | .ok (.exited _ status) => return some status
      | .ok (.stopped _ event) =>
        let signal := match event with
          | .signal s => if s = .stop then none else some s
          | _ => none
        match ← resume a.toStopAnswers .ending signal with
        | none => reap waits
        | some e => if e = .noProcess then reap waits else lost e
      | .error (.died _) => reap waits
      | .error (.errno e) => lost e

/-- Kills the process at a stop and waits for its end. -/
def terminate (stop : StopAnswers) (waits : List WaitAnswer) :
    RunStep κ δ (Option ExitStatus) := do
  record (.killed stop.kill)
  match stop.kill with
  | none => reap (← get).afterKill
  | some e => if e = .noProcess then reap waits else throw (.tracee (.errno e))

/-- Stops the capture if the stretch is captured. -/
def leave [TraceCapture κ] (stretch : Stretch) : RunStep κ δ Unit :=
  if stretch = .user then disable else pure ()

/-- Does what ends a stretch and leaves it, also after an error.  If the capture
cannot be stopped, this is the error. -/
def leaving {α : Type} [TraceCapture κ] (stretch : Stretch) (last : RunStep κ δ α) :
    RunStep κ δ α := fun s =>
  match last s with
  | .ok a s =>
    match leave stretch s with
    | .ok () s => .ok a s
    | .error e s => .error e s
  | .error e s =>
    match leave stretch s with
    | .ok () s => .error e s
    | .error e s => .error e s

/-- Lets the process run from a stop, then goes on.  If the process has died, its
end is waited for. -/
def resuming [TraceCapture κ] (stop : StopAnswers) (stretch : Stretch) (signal : Option Signal)
    (waits : List WaitAnswer) (next : RunStep κ δ (Option ExitStatus)) :
    RunStep κ δ (Option ExitStatus) := do
  match ← resume stop stretch signal with
  | none => next
  | some e =>
    leaving stretch (if e = .noProcess then reap waits else throw (.tracee (.errno e)))

/-! ## The analysis of a window -/

/-- What the items of a window come to. -/
structure Drained (δ : Type) where
  decoder : δ
  buffer : WindowBuffer
  overflow : Option WindowOverflow
  errors : Nat
  /-- What is to be said about the items, the latest first. -/
  notices : List Notice

/-- Takes the items of a window, up to the first one that does not fit or that
says that there are no more.  `logged` says whether instructions are logged. -/
def drain (window : Nat) (logged : Bool) (buffer : WindowBuffer) (errors : Nat)
    (notices : List Notice) : ItemStream δ → Drained δ
  | .done left => ⟨left, buffer, none, errors, notices⟩
  | .item (.ok r) left rest =>
    let notices := if logged then .instruction window r :: notices else notices
    if h : buffer.records.size < buffer.capacity then
      drain window logged (buffer.add r h) errors notices (rest ())
    else ⟨left, buffer, some ⟨buffer.capacity⟩, errors, notices⟩
  | .item (.error .endOfStream) left _ => ⟨left, buffer, none, errors, notices⟩
  | .item (.error e) _ rest =>
    drain window logged buffer (errors + 1) (.decodeError window e :: notices) (rest ())

def updateReport (f : Report → Report) : RunStep κ δ Unit :=
  modify fun s => { s with report := f s.report }

/-- Analyses what was drained.  A window that does not fit is not judged. -/
def judge (window : Nat) (d : Drained δ) : RunStep κ δ (Option Reason) := do
  modify fun s =>
    { s with
      decoder := d.decoder
      buffer := d.buffer
      acts := d.notices.map .noted ++ s.acts }
  updateReport fun r =>
    { r with
      instructions := r.instructions + d.buffer.size
      decodeErrors := r.decodeErrors + d.errors }
  let config := (← get).config
  let verdict ← match d.overflow with
    | some e => do
      note (.abandoned window e)
      updateReport fun r => { r with abandonedWindows := r.abandonedWindows + 1 }
      pure Verdict.consistent
    | none => pure (config.analyzer.judgeRecords d.buffer.toList)
  if config.diagnostics.timeAnalysis then
    note (.analyzed window d.buffer.size)
  return verdict.reason?

/-- Decodes and analyses the window that was just captured.  The answer is why it
is suspicious, if it is. -/
def analyze [TraceCapture κ] [TraceDecoder δ] : RunStep κ δ (Option Reason) := do
  let s ← get
  let number := s.report.windows
  let window := TraceCapture.window s.capture
  record (.readWindow window)
  if window.truncated then note (.ringFull number)
  let opening :=
    if s.decodeAnew then TraceDecoder.restart s.decoder window.bytes
    else TraceDecoder.resync s.decoder window.bytes
  record (.decoded s.decodeAnew opening)
  match opening with
  | .opened items =>
    modify fun s => { s with decodeAnew := false }
    judge number (drain number s.config.diagnostics.logInstructions s.buffer.clear 0 [] items)
  | .refused e left =>
    modify fun s => { s with decoder := left }
    if e = .endOfStream then
      modify fun s => { s with decodeAnew := false }
      note (.emptyWindow number)
    else note (.undecodable number e)
    updateReport fun r => { r with skippedWindows := r.skippedWindows + 1 }
    return none

/-- Logs the system call at which the process stands.  If the process has died,
the next step will tell. -/
def logSyscall (stop : StopAnswers) : RunStep κ δ Unit := do
  match stop.registers with
  | .ok request => note (.syscall request)
  | .error e => if e = .noProcess then pure () else throw (.tracee (.errno e))

/-- Waits for a line. -/
def awaitEnter (stop : StopAnswers) : RunStep κ δ Unit := do
  note .awaitingEnter
  match stop.unreadable with
  | none => pure ()
  | some cause => throw (.io cause)

/-- What is done at the entry of a system call.  The answer is why the window
that it closes is suspicious, if it is. -/
def atEntry [TraceCapture κ] [TraceDecoder δ] (stop : StopAnswers) :
    RunStep κ δ (Option Reason) := do
  updateReport fun r => { r with windows := r.windows + 1 }
  let diagnostics := (← get).config.diagnostics
  if diagnostics.traceSyscalls then logSyscall stop
  match ← analyze with
  | some reason =>
    note (.suspicious (← get).report.windows reason)
    return some reason
  | none =>
    if diagnostics.step then awaitEnter stop
    return none

/-! ## Following the process -/

/-- Kills the process at a stop because of a suspicious window. -/
def condemn (stop : StopAnswers) (waits : List WaitAnswer) (reason : Reason) :
    RunStep κ δ (Option ExitStatus) := do
  let status ← terminate stop waits
  let pid := (← get).pid
  updateReport fun r => { r with outcome := .attackDetected pid reason }
  return status

/-- Follows a running process through the answers to waiting. -/
def follow [TraceCapture κ] [TraceDecoder δ] (stretch : Stretch) :
    List WaitAnswer → RunStep κ δ (Option ExitStatus)
  | [] => leaving stretch (pure none)
  | a :: waits =>
    match a.status with
    | .error e => if e = .interrupted then follow stretch waits else leaving stretch (lost e)
    | .ok status => do
      let stop := a.toStopAnswers
      match ← interpret a status with
      | .error (.died _) => leaving stretch (reap waits)
      | .error (.errno e) => leaving stretch (lost e)
      | .ok (.exited _ status) => leaving stretch (pure (some status))
      | .ok (.stopped _ .syscall) =>
        if stretch = .user then
          leave stretch
          match ← atEntry stop with
          | some reason => condemn stop waits reason
          | none => resuming stop .kernel none waits (follow .kernel waits)
        else
          enable
          resuming stop .user none waits (follow .user waits)
      | .ok (.stopped _ (.signal signal)) =>
        note (.delivering signal)
        resuming stop stretch (some signal) waits (follow stretch waits)
      | .ok (.stopped _ (.exec _)) =>
        note .calledExec
        modify fun s => { s with decodeAnew := true }
        resuming stop stretch none waits (follow stretch waits)
      | .ok (.stopped _ _) => resuming stop stretch none waits (follow stretch waits)

/-- Lets a process run from a stop that is not to stop at system calls. -/
def resumingWhole (stop : StopAnswers) (signal : Option Signal) (waits : List WaitAnswer)
    (next : RunStep κ δ (Option ExitStatus)) : RunStep κ δ (Option ExitStatus) := do
  match ← resume stop .whole signal with
  | none => next
  | some e => if e = .noProcess then reap waits else throw (.tracee (.errno e))

/-- Follows a process that does not stop at system calls. -/
def followWhole : List WaitAnswer → RunStep κ δ (Option ExitStatus)
  | [] => throw (.tracee (.errno .noChild))
  | a :: waits =>
    match a.status with
    | .error e => if e = .interrupted then followWhole waits else throw (.tracee (.errno e))
    | .ok status => do
      match ← interpret a status with
      | .error e => throw (.tracee e)
      | .ok (.exited _ status) => return some status
      | .ok (.stopped _ event) =>
        let signal := match event with
          | .signal s => some s
          | _ => none
        resumingWhole a.toStopAnswers signal waits (followWhole waits)

/-- Monitors a process to its end, or to a suspicious window. -/
def monitor [TraceCapture κ] [TraceDecoder δ] (tracee : Tracee) : RunStep κ δ Report := do
  enable
  let status ←
    resuming tracee.first .user none tracee.waits (follow .user tracee.waits)
  updateReport fun r => { r with exitStatus := status }
  let report := (← get).report
  note (.finished report)
  return report

/-- Captures a process to its end, without analysis. -/
def captureWhole [TraceCapture κ] (tracee : Tracee) : RunStep κ δ Report := do
  enable
  let status ← resumingWhole tracee.first none tracee.waits (followWhole tracee.waits)
  disable
  updateReport fun r => { r with exitStatus := status }
  note .timed
  return (← get).report

end RunStep

namespace Session

variable {κ δ : Type} [TraceCapture κ] [TraceDecoder δ]

/-- Runs a process under the monitor.  The session is there also after an
error. -/
def run (config : MonitorConfig) (capture : κ) (decoder : δ) (tracee : Tracee) :
    Except MonitorError Report × Session κ δ :=
  let step : RunStep κ δ Report :=
    if config.diagnostics.traceTimeOnly then .captureWhole tracee else .monitor tracee
  match step (start config capture decoder tracee) with
  | .ok report s => (.ok report, s)
  | .error e s => (.error e, s)

end Session

end BranchWatch
