import BranchWatch.Proofs.Monitor.Phase

/-!
# Every run keeps to the phases

A turn of a run takes it from one phase to the next one (`Sliced.turn`), each end comes to a phase in
which the capture is off (`Sliced.ends`), and so every act of a run has room in its phase, whether
the run comes to a report or not (`exists_inPhase`).
-/

namespace BranchWatch

/-- The phase of a process that runs in a stretch. -/
def Stretch.running : Stretch → Phase
  | user => .running
  | _ => .calling

/-- The phase of a process that is stopped in a stretch. -/
def Stretch.stopped : Stretch → Phase
  | user => .ready
  | _ => .read

/-- In which phase a run may end, and with which failure. -/
inductive Phase.Ends (settings : MonitorConfig) : Phase → Option MonitorError → Prop
  | closed (failure : Option MonitorError) : Ends settings closed failure
  | calling (failure : Option MonitorError) : Ends settings calling failure
  /-- The system call cannot be logged, although the process has not died. -/
  | captured (hlog : settings.diagnostics.traceSyscalls = true) {e : Errno} (he : e ≠ .noProcess) :
      Ends settings captured (some (.tracee (.errno e)))
  /-- No line can be read. -/
  | read (hstep : settings.diagnostics.step = true) (cause : String) :
      Ends settings read (some (.io cause))
  | failed (e : CollectorError) : Ends settings (failed e) (some (.collector e))

theorem Phase.Ends.isOn_eq {settings : MonitorConfig} {p : Phase} {failure : Option MonitorError}
    (h : p.Ends settings failure) : p.isOn = false := by
  cases h <;> rfl

namespace Session

variable {κ δ : Type}

/-- The run has come to a phase with these settings. -/
structure Sliced (settings : MonitorConfig) (p : Phase) (s : Session κ δ) : Prop where
  config : s.config = settings
  capacity : s.buffer.capacity = settings.windowCapacity
  acts : InPhase s.acts p

namespace Sliced

variable {settings : MonitorConfig} {p q : Phase} {s s' : Session κ δ}

theorem did {a : Act δ} (h : s.Sliced settings p) (ha : p.Step a q) : (s.did a).Sliced settings q :=
  ⟨h.config, h.capacity, h.acts.cons ha⟩

/-- The buffer has the size that the settings say. -/
theorem fits (h : s.Sliced settings p) : s.buffer.capacity = s.config.windowCapacity := by
  rw [h.capacity, h.config]

/-- The process was found stopped, but not at a system call. -/
theorem stopped {stretch : Stretch} {event : StopEvent} (h : s.Sliced settings stretch.running)
    (pid : Int) (hevent : event ≠ .syscall) :
    (s.did (.waited (.ok (.stopped pid event)))).Sliced settings stretch.stopped := by
  cases stretch with
  | user => exact h.did (.stop pid hevent)
  | _ => exact h.did (.stopInCall pid hevent)

theorem said {stretch : Stretch} (h : s.Sliced settings stretch.stopped) (n : Notice) :
    (s.did (.noted n)).Sliced settings stretch.stopped := by
  cases stretch <;> exact h.did (.say rfl n)

theorem resumed {stretch : Stretch} (h : s.Sliced settings stretch.stopped)
    (hstretch : stretch = .user ∨ stretch = .kernel) (signal : Option Signal) :
    (s.did (.resumed stretch signal none)).Sliced settings stretch.running := by
  rcases hstretch with rfl | rfl
  · exact h.did (.run signal)
  · exact h.did (.call signal)

/-- On the way to the end of a process the phase does not change. -/
theorem lasting (hp : p.isReaping = true) :
    RunStep.Lasting fun s : Session κ δ => s.Sliced settings p :=
  ⟨fun _ _ h => h.did (.reap hp rfl), fun _ _ _ h => h.did (.reap hp rfl)⟩

/-- The process is killed because of a suspicious window. -/
theorem condemn {stop : StopAnswers} {waits : List WaitAnswer} {reason : Reason}
    (h : s.Sliced settings .read) :
    (RunStep.behind (RunStep.condemn stop waits reason s)).Sliced settings .closed := by
  have hover := (lasting rfl).terminate stop waits s (h.did (.kill stop.kill))
  unfold RunStep.condemn
  rw [RunStep.bind_apply]
  cases hterminate : RunStep.terminate stop waits s with
  | ok status m =>
      rw [hterminate] at hover
      exact ⟨hover.config, hover.capacity, hover.acts⟩
  | error e m =>
      rw [hterminate] at hover
      exact hover

/-- Before the first act. -/
theorem start (config : MonitorConfig) (capture : κ) (decoder : δ) (tracee : Tracee) :
    (Session.start config capture decoder tracee).Sliced config .held :=
  ⟨rfl, rfl, .nil⟩

section

variable [TraceCapture κ]

/-- The capture was stopped, or could not be. -/
theorem disabled (h : s.Sliced settings p) (hp : p = .running ∨ p = .gone) :
    match (TraceCapture.disable s.capture).1 with
    | .ok () => s.disabled.Sliced settings .closed
    | .error e => s.disabled.Sliced settings (.failed e) := by
  have hstep (q : Phase) (ha : p.Step (.disabled (TraceCapture.disable s.capture).1) q) :
      s.disabled.Sliced settings q := ⟨h.config, h.capacity, h.acts.cons ha⟩
  cases hanswer : (TraceCapture.disable s.capture).1 with
  | ok _ => exact hstep .closed (hanswer ▸ .leave hp)
  | error e =>
      refine hstep (.failed e) (hanswer ▸ .endFails ?_ e)
      rcases hp with rfl | rfl <;> rfl

/-- A captured stretch is left for good. -/
theorem leaving_user {α : Type} {last : RunStep κ δ α}
    (h : (RunStep.behind (last s)).Sliced settings p) (hp : p = .running ∨ p = .gone) :
    ∃ q, (RunStep.behind (RunStep.leaving .user last s)).Sliced settings q ∧
      q.Ends settings (RunStep.failure? (RunStep.leaving .user last s)) := by
  have hoff := h.disabled hp
  rw [RunStep.behind_leaving_user, RunStep.failure?_leaving_user]
  cases hanswer : (TraceCapture.disable (RunStep.behind (last s)).capture).1 with
  | ok _ =>
      rw [hanswer] at hoff
      exact ⟨.closed, hoff, .closed _⟩
  | error e =>
      rw [hanswer] at hoff
      exact ⟨.failed e, hoff, .failed e⟩

/-- A stretch is left when the process runs no more: it is being waited for, or it is gone. -/
theorem leaving {α : Type} {stretch : Stretch} {last : RunStep κ δ α}
    (huser : stretch = .user → (RunStep.behind (last s)).Sliced settings .running ∨
      (RunStep.behind (last s)).Sliced settings .gone)
    (hother : stretch ≠ .user → (RunStep.behind (last s)).Sliced settings .calling ∨
      (RunStep.behind (last s)).Sliced settings .closed) :
    ∃ q, (RunStep.behind (RunStep.leaving stretch last s)).Sliced settings q ∧
      q.Ends settings (RunStep.failure? (RunStep.leaving stretch last s)) := by
  by_cases hstretch : stretch = .user
  · subst hstretch
    rcases huser rfl with h | h
    · exact h.leaving_user (.inl rfl)
    · exact h.leaving_user (.inr rfl)
  · rw [RunStep.leaving_of_ne hstretch]
    rcases hother hstretch with h | h
    · exact ⟨.calling, h, .calling _⟩
    · exact ⟨.closed, h, .closed _⟩

/-- The process was found at the entry of a system call, and the capture was stopped. -/
theorem captured (h : s.Sliced settings .running) (pid : Int)
    (hdisable : (TraceCapture.disable s.capture).1 = .ok ()) :
    (s.did (.waited (.ok (.stopped pid .syscall)))).disabled.Sliced settings .captured := by
  refine ⟨h.config, h.capacity, (h.acts.cons (.enter pid)).cons ?_⟩
  rw [did_capture, hdisable]
  exact .close

/-- The process cannot be let run. -/
theorem unresumed {stretch : Stretch} {signal : Option Signal} {e : Errno} {waits : List WaitAnswer}
    (h : s.Sliced settings stretch.stopped) (hstretch : stretch = .user ∨ stretch = .kernel) :
    ∃ q, (RunStep.behind (RunStep.leaving stretch (RunStep.unresumed e waits)
        (s.did (.resumed stretch signal (some e))))).Sliced settings q ∧
      q.Ends settings (RunStep.failure? (RunStep.leaving stretch (RunStep.unresumed e waits)
        (s.did (.resumed stretch signal (some e))))) := by
  refine leaving (fun huser => .inr ?_) fun hother => .inr ?_
  · subst huser
    exact (lasting rfl).unresumed e waits _ (h.did (.runFails signal e))
  · obtain rfl := hstretch.resolve_left hother
    exact (lasting rfl).unresumed e waits _ (h.did (.callFails signal e))

variable [TraceDecoder δ] {stretch : Stretch}

/-- The window is looked at and decoded. -/
theorem closed {counted : Nat} {reason : Option Reason} (h : s.Sliced settings .captured)
    (hclosed : RunStep.Closed s counted reason s') : s'.Sliced settings .read := by
  obtain ⟨first, second, third, hacts⟩ := hclosed.acts
  refine ⟨hclosed.config.trans h.config, hclosed.capacity.trans h.capacity, hacts ▸ ?_⟩
  have hread : InPhase (.readWindow (TraceCapture.window s.capture) ::
      (first.map .noted ++ s.acts)) .read := (h.acts.noted rfl first).cons (.look _)
  exact ((hread.noted rfl second).cons (.decode _ _)).noted rfl third

theorem turn {a : WaitAnswer} {stretch' : Stretch} {signal : Option Signal}
    (h : s.Sliced settings stretch.running) (hstretch : stretch = .user ∨ stretch = .kernel)
    (hturn : RunStep.Turn a stretch s stretch' signal s') :
    s'.Sliced settings stretch'.stopped ∧ (stretch' = .user ∨ stretch' = .kernel) := by
  cases hturn with
  | @entry _ _ pid ha hdisable hentry =>
      have hcaptured := h.captured pid hdisable
      exact ⟨hcaptured.closed (RunStep.atEntry_ok hcaptured.fits hentry), .inr rfl⟩
  | @exit _ _ pid huser ha henable =>
      obtain rfl := hstretch.resolve_left huser
      refine ⟨⟨h.config, h.capacity, (h.acts.cons (.exit pid)).cons ?_⟩, .inl rfl⟩
      rw [did_capture, henable]
      exact .start
  | @signal _ _ pid signal ha =>
      have hevent : StopEvent.signal signal ≠ .syscall := nofun
      exact ⟨(h.stopped pid hevent).said _, hstretch⟩
  | @exec _ _ pid former ha =>
      have hevent : StopEvent.exec former ≠ .syscall := nofun
      have h' := (h.stopped pid hevent).said .calledExec
      exact ⟨⟨h'.config, h'.capacity, h'.acts⟩, hstretch⟩
  | @other _ _ pid _ ha hsyscall => exact ⟨h.stopped pid hsyscall, hstretch⟩

theorem ends {waits : List WaitAnswer}
    {result : EStateM.Result MonitorError (Session κ δ) (Option ExitStatus)}
    (h : s.Sliced settings stretch.running) (hstretch : stretch = .user ∨ stretch = .kernel)
    (hends : RunStep.Ends stretch waits s result) :
    ∃ q, (RunStep.behind result).Sliced settings q ∧
      q.Ends settings (RunStep.failure? result) := by
  -- What ends a stretch without an act, and what does with one.
  have quietly {last : RunStep κ δ (Option ExitStatus)} (hlast : RunStep.behind (last s) = s) :
      ∃ q, (RunStep.behind (RunStep.leaving stretch last s)).Sliced settings q ∧
        q.Ends settings (RunStep.failure? (RunStep.leaving stretch last s)) := by
    refine leaving (fun huser => .inl ?_) fun hother => .inl ?_
    · subst huser
      rw [hlast]
      exact h
    · obtain rfl := hstretch.resolve_left hother
      rw [hlast]
      exact h
  have vanished {last : RunStep κ δ (Option ExitStatus)}
      {state : Except TraceeError ProcessState}
      (hstate : ∀ pid event, state ≠ .ok (.stopped pid event))
      (hlast : ∀ p, Phase.isReaping p = true → (s.did (.waited state)).Sliced settings p →
        (RunStep.behind (last (s.did (.waited state)))).Sliced settings p) :
      ∃ q, (RunStep.behind (RunStep.leaving stretch last (s.did (.waited state)))).Sliced settings q ∧
        q.Ends settings (RunStep.failure? (RunStep.leaving stretch last (s.did (.waited state)))) := by
    refine leaving (fun huser => .inr ?_) fun hother => .inr ?_
    · subst huser
      exact hlast .gone rfl (h.did (.vanish hstate))
    · obtain rfl := hstretch.resolve_left hother
      exact hlast .closed rfl (h.did (.vanishInCall hstate))
  cases hends with
  | nobody => exact quietly rfl
  | unwaited ha he => exact quietly (RunStep.behind_lost _ s)
  | @died _ _ waits _ _ ha => exact vanished nofun fun p hp h => (lasting hp).reap waits _ h
  | @untold _ _ _ _ e ha =>
      exact vanished nofun fun p hp h => (RunStep.behind_lost e (s.did _)).symm ▸ h
  | exited ha => exact vanished nofun fun p hp h => h
  | @undisabled _ _ _ pid e ha hdisable =>
      refine ⟨.failed e, ⟨h.config, h.capacity, (h.acts.cons (.enter pid)).cons ?_⟩, .failed e⟩
      rw [did_capture, hdisable]
      exact .endFails rfl e
  | @failed _ _ _ _ pid _ ha hdisable hentry =>
      have hcaptured := h.captured pid hdisable
      rcases RunStep.atEntry_error hcaptured.fits hentry with
        ⟨hlog, rfl, e, he, -, rfl⟩ | ⟨hstep, hclosed, cause, -, rfl⟩
      · rw [hcaptured.config] at hlog
        exact ⟨.captured, ⟨hcaptured.config, hcaptured.capacity, hcaptured.acts⟩, .captured hlog he⟩
      · rw [hcaptured.config] at hstep
        exact ⟨.read, hcaptured.closed hclosed, .read hstep cause⟩
  | @condemned _ waits _ m pid reason ha hdisable hentry =>
      have hcaptured := h.captured pid hdisable
      have hread := hcaptured.closed (RunStep.atEntry_ok hcaptured.fits hentry)
      exact ⟨.closed, hread.condemn, .closed _⟩
  | @unenabled _ _ _ _ pid e huser ha henable =>
      obtain rfl := hstretch.resolve_left huser
      refine ⟨.failed e, ⟨h.config, h.capacity, (h.acts.cons (.exit pid)).cons ?_⟩, .failed e⟩
      rw [did_capture, henable]
      exact .startFails e
  | unresumed hturn hresume =>
      obtain ⟨h', hstretch'⟩ := h.turn hstretch hturn
      exact h'.unresumed hstretch'

/-- A run that follows the process comes to an end with the capture off. -/
theorem follow {waits : List WaitAnswer} (h : s.Sliced settings stretch.running)
    (hstretch : stretch = .user ∨ stretch = .kernel) :
    ∃ q, (RunStep.behind (RunStep.follow stretch waits s)).Sliced settings q ∧
      q.Ends settings (RunStep.failure? (RunStep.follow stretch waits s)) := by
  refine (RunStep.runs_follow stretch waits s).conclude
    (P := fun stretch s => s.Sliced settings stretch.running ∧
      (stretch = .user ∨ stretch = .kernel)) ?_ (fun hs hends => hs.1.ends hs.2 hends) ⟨h, hstretch⟩
  intro a stretch s stretch' signal s' hs hturn
  obtain ⟨h', hstretch'⟩ := hs.1.turn hs.2 hturn
  exact ⟨h'.resumed hstretch' signal, hstretch'⟩

/-- The process is let run for the first time. -/
theorem resuming (h : s.Sliced settings .ready) (stop : StopAnswers) (waits : List WaitAnswer) :
    ∃ q, (RunStep.behind (RunStep.resuming stop .user none waits
        (RunStep.follow .user waits) s)).Sliced settings q ∧
      q.Ends settings (RunStep.failure? (RunStep.resuming stop .user none waits
        (RunStep.follow .user waits) s)) := by
  rw [RunStep.resuming_eq]
  cases stop.resume with
  | none =>
      have hrunning : (s.did (.resumed .user none none)).Sliced settings Stretch.user.running :=
        h.did (.run none)
      exact hrunning.follow (.inl rfl)
  | some e =>
      have hready : s.Sliced settings Stretch.user.stopped := h
      exact hready.unresumed (.inl rfl)

theorem monitor (h : s.Sliced settings .held) (tracee : Tracee) :
    ∃ q, (RunStep.behind (RunStep.monitor tracee s)).Sliced settings q ∧
      q.Ends settings (RunStep.failure? (RunStep.monitor tracee s)) := by
  rw [RunStep.monitor_eq]
  have hstep (q : Phase) (ha : Phase.held.Step (.enabled (TraceCapture.enable s.capture).1) q) :
      s.enabled.Sliced settings q := ⟨h.config, h.capacity, h.acts.cons ha⟩
  rcases henable : (TraceCapture.enable s.capture).1 with e | ⟨⟨⟩⟩ <;> rw [henable] at hstep <;>
    simp only
  · exact ⟨.failed e, hstep _ (.startFails e), .failed e⟩
  · obtain ⟨q, hq, hends⟩ := (hstep _ .start).resuming tracee.first tracee.waits
    cases hresult : RunStep.resuming tracee.first .user none tracee.waits
        (RunStep.follow .user tracee.waits) s.enabled with
    | error e m =>
        rw [hresult] at hq hends
        exact ⟨q, hq, hends⟩
    | ok status m =>
        rw [hresult] at hq hends
        -- Only the notice that the run is finished is missing.
        refine ⟨.closed, ⟨hq.config, hq.capacity, hq.acts.cons ?_⟩, .closed _⟩
        cases hends with
        | closed => exact .say rfl _
        | calling => exact .conclude _

end

end Sliced

section

variable [TraceCapture κ] [TraceDecoder δ] {config : MonitorConfig} {capture : κ} {decoder : δ}
  {tracee : Tracee} {answer : Except MonitorError Report} {s : Session κ δ}

/-- Every act of a run that stops at system calls has room in its phase. -/
theorem exists_inPhase (hmode : config.diagnostics.traceTimeOnly = false)
    (h : Session.run config capture decoder tracee = (answer, s)) :
    ∃ p failure, InPhase s.acts p ∧ p.Ends config failure ∧
      ∀ e, failure = some e → answer = .error e := by
  obtain ⟨q, hq, hends⟩ := (Sliced.start config capture decoder tracee).monitor tracee
  rcases RunStep.monitor_of_run hmode h with ⟨report, rfl, hresult⟩ | ⟨e, rfl, hresult⟩ <;>
    rw [hresult] at hq hends
  · exact ⟨q, _, hq.acts, hends, nofun⟩
  · exact ⟨q, _, hq.acts, hends, fun e he => congrArg _ (Option.some.inj he)⟩

end

end Session

end BranchWatch
