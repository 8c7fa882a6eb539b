import BranchWatch.Monitor.Run

/-!
# The turns of a run

A run follows the answers to waiting.  What one answer can do is said once: the run goes on after a
request to let the process run (`Turn`), or it is over (`Ends`).  A whole run is a number of turns
and then an end (`Runs`), and `runs_follow` says that this is what the program does.  A property of
runs is proved for a turn and for each end, and then by induction on `Runs`.
-/

namespace BranchWatch

/-- What an answer to waiting tells; an error if nobody could be waited for. -/
def WaitAnswer.told (a : WaitAnswer) : Except Errno (Except TraceeError ProcessState) :=
  a.status.map a.state

namespace Session

variable {κ δ : Type}

/-- The session with one more thing done. -/
def did (s : Session κ δ) (a : Act δ) : Session κ δ := { s with acts := a :: s.acts }

@[simp] theorem did_capture (s : Session κ δ) (a : Act δ) : (s.did a).capture = s.capture := rfl

@[simp] theorem did_report (s : Session κ δ) (a : Act δ) : (s.did a).report = s.report := rfl

@[simp] theorem did_acts (s : Session κ δ) (a : Act δ) : (s.did a).acts = a :: s.acts := rfl

section

variable [TraceCapture κ]

/-- The session after the capture was asked to start. -/
def enabled (s : Session κ δ) : Session κ δ :=
  { s with capture := (TraceCapture.enable s.capture).2 }.did
    (.enabled (TraceCapture.enable s.capture).1)

/-- The session after the capture was asked to stop. -/
def disabled (s : Session κ δ) : Session κ δ :=
  { s with capture := (TraceCapture.disable s.capture).2 }.did
    (.disabled (TraceCapture.disable s.capture).1)

end

end Session

namespace RunStep

variable {κ δ α β : Type} {s s' : Session κ δ}

/-- Two steps in a row: the second one starts where the first one ends, unless that fails. -/
theorem bind_apply (x : RunStep κ δ α) (f : α → RunStep κ δ β) (s : Session κ δ) :
    (x >>= f) s = match x s with
      | .ok a s => f a s
      | .error e s => .error e s := by
  simp only [bind, EStateM.bind]
  cases x s <;> rfl

theorem resume_eq (stop : StopAnswers) (stretch : Stretch) (signal : Option Signal)
    (s : Session κ δ) :
    resume stop stretch signal s = .ok stop.resume (s.did (.resumed stretch signal stop.resume)) :=
  rfl

theorem interpret_eq (a : WaitAnswer) (status : WaitStatus) (s : Session κ δ) :
    interpret a status s = .ok (a.state status) (s.did (.waited (a.state status))) := rfl

theorem pure_eq (a : α) (s : Session κ δ) : (pure a : RunStep κ δ α) s = .ok a s := rfl

theorem get_eq (s : Session κ δ) : (get : RunStep κ δ (Session κ δ)) s = .ok s s := rfl

theorem modify_eq (f : Session κ δ → Session κ δ) (s : Session κ δ) :
    (modify f : RunStep κ δ PUnit) s = .ok ⟨⟩ (f s) := rfl

theorem updateReport_eq (f : Report → Report) (s : Session κ δ) :
    updateReport f s = .ok () { s with report := f s.report } := rfl

theorem record_eq (a : Act δ) (s : Session κ δ) : record a s = .ok () (s.did a) := rfl

theorem note_eq (n : Notice) (s : Session κ δ) : note n s = .ok () (s.did (.noted n)) := rfl

section

variable [TraceCapture κ]

theorem enable_eq (s : Session κ δ) :
    enable s = match (TraceCapture.enable s.capture).1 with
      | .ok () => .ok () s.enabled
      | .error e => .error (.collector e) s.enabled := by
  have h : enable s = failOnError (TraceCapture.enable s.capture).1 s.enabled := rfl
  rw [h]
  generalize s.enabled = s'
  cases (TraceCapture.enable s.capture).1 <;> rfl

theorem disable_eq (s : Session κ δ) :
    disable s = match (TraceCapture.disable s.capture).1 with
      | .ok () => .ok () s.disabled
      | .error e => .error (.collector e) s.disabled := by
  have h : disable s = failOnError (TraceCapture.disable s.capture).1 s.disabled := rfl
  rw [h]
  generalize s.disabled = s'
  cases (TraceCapture.disable s.capture).1 <;> rfl

theorem leave_user : leave .user = (disable : RunStep κ δ Unit) := rfl

theorem leave_of_ne {stretch : Stretch} (h : stretch ≠ .user) (s : Session κ δ) :
    leave stretch s = .ok () s := by
  unfold leave
  rw [if_neg h]
  rfl

/-- What is done when the process cannot be let run. -/
def unresumed (e : Errno) (waits : List WaitAnswer) : RunStep κ δ (Option ExitStatus) :=
  if e = .noProcess then reap waits else throw (.tracee (.errno e))

theorem resuming_eq (stop : StopAnswers) (stretch : Stretch) (signal : Option Signal)
    (waits : List WaitAnswer) (next : RunStep κ δ (Option ExitStatus)) (s : Session κ δ) :
    resuming stop stretch signal waits next s = match stop.resume with
      | none => next (s.did (.resumed stretch signal none))
      | some e =>
        leaving stretch (unresumed e waits) (s.did (.resumed stretch signal (some e))) := by
  unfold resuming
  rw [bind_apply, resume_eq]
  cases stop.resume <;> rfl

end

section

variable [TraceCapture κ] [TraceDecoder δ]

/-! ## What one answer can do -/

/-- After the answer `a` the process is to run on: in which stretch, with which signal, and from
which session. -/
inductive Turn (a : WaitAnswer) :
    Stretch → Session κ δ → Stretch → Option Signal → Session κ δ → Prop
  /-- A system call is entered, and the window that this closes is not suspicious. -/
  | entry {s s' : Session κ δ} {pid : Int} (ha : a.told = .ok (.ok (.stopped pid .syscall)))
      (hdisable : (TraceCapture.disable s.capture).1 = .ok ())
      (hentry : atEntry a.toStopAnswers (s.did (.waited (.ok (.stopped pid .syscall)))).disabled =
        .ok none s') :
      Turn a .user s .kernel none s'
  /-- A system call is left. -/
  | exit {stretch : Stretch} {s : Session κ δ} {pid : Int} (hstretch : stretch ≠ .user)
      (ha : a.told = .ok (.ok (.stopped pid .syscall)))
      (henable : (TraceCapture.enable s.capture).1 = .ok ()) :
      Turn a stretch s .user none (s.did (.waited (.ok (.stopped pid .syscall)))).enabled
  | signal {stretch : Stretch} {s : Session κ δ} {pid : Int} {signal : Signal}
      (ha : a.told = .ok (.ok (.stopped pid (.signal signal)))) :
      Turn a stretch s stretch (some signal)
        ((s.did (.waited (.ok (.stopped pid (.signal signal))))).did (.noted (.delivering signal)))
  | exec {stretch : Stretch} {s : Session κ δ} {pid former : Int}
      (ha : a.told = .ok (.ok (.stopped pid (.exec former)))) :
      Turn a stretch s stretch none
        { (s.did (.waited (.ok (.stopped pid (.exec former))))).did (.noted .calledExec) with
          decodeAnew := true }
  | other {stretch : Stretch} {s : Session κ δ} {pid : Int} {event : StopEvent}
      (ha : a.told = .ok (.ok (.stopped pid event))) (hsyscall : event ≠ .syscall)
      (hsignal : ∀ signal, event ≠ .signal signal) (hexec : ∀ former, event ≠ .exec former) :
      Turn a stretch s stretch none (s.did (.waited (.ok (.stopped pid event))))

/-- How a run ends with the next answer, and with which result. -/
inductive Ends :
    Stretch → List WaitAnswer → Session κ δ →
      EStateM.Result MonitorError (Session κ δ) (Option ExitStatus) → Prop
  /-- There is nobody left to wait for. -/
  | nobody {stretch : Stretch} {s : Session κ δ} : Ends stretch [] s (leaving stretch (pure none) s)
  | unwaited {stretch : Stretch} {a : WaitAnswer} {waits : List WaitAnswer} {s : Session κ δ}
      {e : Errno} (ha : a.told = .error e) (he : e ≠ .interrupted) :
      Ends stretch (a :: waits) s (leaving stretch (lost e) s)
  | died {stretch : Stretch} {a : WaitAnswer} {waits : List WaitAnswer} {s : Session κ δ}
      {pid : Int} (ha : a.told = .ok (.error (.died pid))) :
      Ends stretch (a :: waits) s
        (leaving stretch (reap waits) (s.did (.waited (.error (.died pid)))))
  | untold {stretch : Stretch} {a : WaitAnswer} {waits : List WaitAnswer} {s : Session κ δ}
      {e : Errno} (ha : a.told = .ok (.error (.errno e))) :
      Ends stretch (a :: waits) s
        (leaving stretch (lost e) (s.did (.waited (.error (.errno e)))))
  | exited {stretch : Stretch} {a : WaitAnswer} {waits : List WaitAnswer} {s : Session κ δ}
      {pid : Int} {status : ExitStatus} (ha : a.told = .ok (.ok (.exited pid status))) :
      Ends stretch (a :: waits) s
        (leaving stretch (pure (some status)) (s.did (.waited (.ok (.exited pid status)))))
  /-- The capture cannot be stopped at the entry to a system call. -/
  | undisabled {a : WaitAnswer} {waits : List WaitAnswer} {s : Session κ δ} {pid : Int}
      {e : CollectorError} (ha : a.told = .ok (.ok (.stopped pid .syscall)))
      (hdisable : (TraceCapture.disable s.capture).1 = .error e) :
      Ends .user (a :: waits) s
        (.error (.collector e) (s.did (.waited (.ok (.stopped pid .syscall)))).disabled)
  /-- What is done at the entry to a system call breaks off. -/
  | failed {a : WaitAnswer} {waits : List WaitAnswer} {s s' : Session κ δ} {pid : Int}
      {e : MonitorError} (ha : a.told = .ok (.ok (.stopped pid .syscall)))
      (hdisable : (TraceCapture.disable s.capture).1 = .ok ())
      (hentry : atEntry a.toStopAnswers (s.did (.waited (.ok (.stopped pid .syscall)))).disabled =
        .error e s') :
      Ends .user (a :: waits) s (.error e s')
  | condemned {a : WaitAnswer} {waits : List WaitAnswer} {s s' : Session κ δ} {pid : Int}
      {reason : Reason} (ha : a.told = .ok (.ok (.stopped pid .syscall)))
      (hdisable : (TraceCapture.disable s.capture).1 = .ok ())
      (hentry : atEntry a.toStopAnswers (s.did (.waited (.ok (.stopped pid .syscall)))).disabled =
        .ok (some reason) s') :
      Ends .user (a :: waits) s (condemn a.toStopAnswers waits reason s')
  /-- The capture cannot be started at the exit of a system call. -/
  | unenabled {stretch : Stretch} {a : WaitAnswer} {waits : List WaitAnswer} {s : Session κ δ}
      {pid : Int} {e : CollectorError} (hstretch : stretch ≠ .user)
      (ha : a.told = .ok (.ok (.stopped pid .syscall)))
      (henable : (TraceCapture.enable s.capture).1 = .error e) :
      Ends stretch (a :: waits) s
        (.error (.collector e) (s.did (.waited (.ok (.stopped pid .syscall)))).enabled)
  /-- The process cannot be let run. -/
  | unresumed {stretch stretch' : Stretch} {a : WaitAnswer} {waits : List WaitAnswer}
      {s s' : Session κ δ} {signal : Option Signal} {e : Errno}
      (hturn : Turn a stretch s stretch' signal s') (hresume : a.resume = some e) :
      Ends stretch (a :: waits) s
        (leaving stretch' (unresumed e waits) (s'.did (.resumed stretch' signal (some e))))

/-- A run through the answers to waiting, from one session to a result. -/
inductive Runs :
    Stretch → List WaitAnswer → Session κ δ →
      EStateM.Result MonitorError (Session κ δ) (Option ExitStatus) → Prop
  | ended {stretch : Stretch} {waits : List WaitAnswer} {s : Session κ δ}
      {result : EStateM.Result MonitorError (Session κ δ) (Option ExitStatus)}
      (h : Ends stretch waits s result) : Runs stretch waits s result
  /-- Waiting was interrupted. -/
  | again {stretch : Stretch} {a : WaitAnswer} {waits : List WaitAnswer} {s : Session κ δ}
      {result : EStateM.Result MonitorError (Session κ δ) (Option ExitStatus)}
      (ha : a.told = .error .interrupted) (h : Runs stretch waits s result) :
      Runs stretch (a :: waits) s result
  | onward {stretch stretch' : Stretch} {a : WaitAnswer} {waits : List WaitAnswer}
      {s s' : Session κ δ} {signal : Option Signal}
      {result : EStateM.Result MonitorError (Session κ δ) (Option ExitStatus)}
      (hturn : Turn a stretch s stretch' signal s') (hresume : a.resume = none)
      (h : Runs stretch' waits (s'.did (.resumed stretch' signal none)) result) :
      Runs stretch (a :: waits) s result

/-- What every turn keeps and every end turns into a conclusion, a run turns into the conclusion. -/
theorem Runs.conclude {P : Stretch → Session κ δ → Prop}
    {Q : EStateM.Result MonitorError (Session κ δ) (Option ExitStatus) → Prop}
    (hturn : ∀ {a stretch s stretch' signal s'}, P stretch s → Turn a stretch s stretch' signal s' →
      P stretch' (s'.did (.resumed stretch' signal none)))
    (hends : ∀ {stretch waits s result}, P stretch s → Ends stretch waits s result → Q result)
    {stretch : Stretch} {waits : List WaitAnswer}
    {result : EStateM.Result MonitorError (Session κ δ) (Option ExitStatus)}
    (h : Runs stretch waits s result) (hs : P stretch s) : Q result := by
  induction h with
  | ended h => exact hends hs h
  | again ha h ih => exact ih hs
  | onward h hresume hruns ih => exact ih (hturn hs h)

/-- The process was let run: the run goes on, or it is over. -/
theorem runs_resuming {stretch stretch' : Stretch} {a : WaitAnswer} {waits : List WaitAnswer}
    {signal : Option Signal} (hturn : Turn a stretch s stretch' signal s')
    (hruns : ∀ s : Session κ δ, Runs stretch' waits s (follow stretch' waits s)) :
    Runs stretch (a :: waits) s
      (resuming a.toStopAnswers stretch' signal waits (follow stretch' waits) s') := by
  rw [resuming_eq]
  cases hresume : a.resume with
  | none => exact .onward hturn hresume (hruns _)
  | some e => exact .ended (.unresumed hturn hresume)

/-- The entry to a system call. -/
theorem runs_entry {a : WaitAnswer} {waits : List WaitAnswer} {pid : Int}
    (ha : a.told = .ok (.ok (.stopped pid .syscall)))
    (hruns : ∀ s : Session κ δ, Runs .kernel waits s (follow .kernel waits s)) :
    Runs .user (a :: waits) s
      ((do
        leave .user
        match ← atEntry a.toStopAnswers with
        | some reason => condemn a.toStopAnswers waits reason
        | none => resuming a.toStopAnswers .kernel none waits (follow .kernel waits) :
          RunStep κ δ (Option ExitStatus)) (s.did (.waited (.ok (.stopped pid .syscall))))) := by
  rw [bind_apply, leave_user, disable_eq, Session.did_capture]
  rcases hdisable : (TraceCapture.disable s.capture).1 with e | ⟨⟨⟩⟩ <;> simp only
  · exact .ended (.undisabled ha hdisable)
  · rw [bind_apply]
    rcases hentry : atEntry a.toStopAnswers _ with ⟨_ | reason, s'⟩ | ⟨e, s'⟩ <;> simp only
    · exact runs_resuming (.entry ha hdisable hentry) hruns
    · exact .ended (.condemned ha hdisable hentry)
    · exact .ended (.failed ha hdisable hentry)

/-- The exit of a system call. -/
theorem runs_exit {stretch : Stretch} {a : WaitAnswer} {waits : List WaitAnswer} {pid : Int}
    (hstretch : stretch ≠ .user) (ha : a.told = .ok (.ok (.stopped pid .syscall)))
    (hruns : ∀ s : Session κ δ, Runs .user waits s (follow .user waits s)) :
    Runs stretch (a :: waits) s
      ((do
        enable
        resuming a.toStopAnswers .user none waits (follow .user waits) :
          RunStep κ δ (Option ExitStatus)) (s.did (.waited (.ok (.stopped pid .syscall))))) := by
  rw [bind_apply, enable_eq, Session.did_capture]
  rcases henable : (TraceCapture.enable s.capture).1 with e | ⟨⟨⟩⟩ <;> simp only
  · exact .ended (.unenabled hstretch ha henable)
  · exact runs_resuming (.exit hstretch ha henable) hruns

/-- The program follows the process in this way. -/
theorem runs_follow (stretch : Stretch) (waits : List WaitAnswer) (s : Session κ δ) :
    Runs stretch waits s (follow stretch waits s) := by
  -- One answer after the other; a stop that lets the process run passes the rest on.
  induction waits generalizing stretch s with
  | nil => exact .ended .nobody
  | cons a waits ih =>
      cases hstatus : a.status with
      | error e =>
          have ha : a.told = .error e := by simp [WaitAnswer.told, hstatus, Except.map]
          simp only [follow, hstatus]
          split
          next he => exact .again (he ▸ ha) (ih stretch s)
          next he => exact .ended (.unwaited ha he)
      | ok status =>
          have ha : a.told = .ok (a.state status) := by simp [WaitAnswer.told, hstatus, Except.map]
          simp only [follow, hstatus]
          rw [bind_apply, interpret_eq]
          rcases hstate : a.state status with ⟨e | pid⟩ | ⟨pid, event⟩ | ⟨pid, status⟩ <;>
            rw [hstate] at ha <;> simp only
          · exact .ended (.untold ha)
          · exact .ended (.died ha)
          · cases event with
            | syscall =>
                simp only
                by_cases hstretch : stretch = .user
                · subst hstretch
                  rw [if_pos rfl]
                  exact runs_entry ha (ih .kernel)
                · rw [if_neg hstretch]
                  exact runs_exit hstretch ha (ih .user)
            | signal signal => exact runs_resuming (.signal ha) (ih stretch)
            | exec former => exact runs_resuming (.exec ha) (ih stretch)
            | exit => exact runs_resuming (.other ha nofun nofun nofun) (ih stretch)
            | stop => exact runs_resuming (.other ha nofun nofun nofun) (ih stretch)
            | other event => exact runs_resuming (.other ha nofun nofun nofun) (ih stretch)
          · exact .ended (.exited ha)

/-! ## A whole run -/

/-- The capture is started, the process is let run and followed to its end, and the report is
completed. -/
theorem monitor_eq (tracee : Tracee) (s : Session κ δ) :
    monitor tracee s = match (TraceCapture.enable s.capture).1 with
      | .error e => .error (.collector e) s.enabled
      | .ok () =>
        match resuming tracee.first .user none tracee.waits (follow .user tracee.waits) s.enabled with
        | .error e m => .error e m
        | .ok status m =>
          .ok { m.report with exitStatus := status }
            ({ m with report := { m.report with exitStatus := status } }.did
              (.noted (.finished { m.report with exitStatus := status }))) := by
  unfold monitor
  rw [bind_apply, enable_eq]
  rcases (TraceCapture.enable s.capture).1 with e | ⟨⟨⟩⟩ <;> simp only
  rw [bind_apply]
  cases resuming tracee.first .user none tracee.waits (follow .user tracee.waits) s.enabled <;> rfl

/-- A run that stops at system calls answers what `monitor` does. -/
theorem monitor_of_run {config : MonitorConfig} {capture : κ} {decoder : δ} {tracee : Tracee}
    {answer : Except MonitorError Report} (hmode : config.diagnostics.traceTimeOnly = false)
    (h : Session.run config capture decoder tracee = (answer, s)) :
    (∃ report, answer = .ok report ∧
        monitor tracee (.start config capture decoder tracee) = .ok report s) ∨
      ∃ e, answer = .error e ∧
        monitor tracee (.start config capture decoder tracee) = .error e s := by
  unfold Session.run at h
  simp only [hmode, Bool.false_eq_true, ↓reduceIte] at h
  cases hresult : monitor tracee (.start config capture decoder tracee) <;> rw [hresult] at h <;>
    cases h
  · exact .inl ⟨_, rfl, rfl⟩
  · exact .inr ⟨_, rfl, rfl⟩

end

end RunStep

end BranchWatch
