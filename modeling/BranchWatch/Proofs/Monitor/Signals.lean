import BranchWatch.Proofs.Monitor.Passage
import BranchWatch.Proofs.Monitor.Report

/-!
# Signals pass through

Whatever the process does, each stop is answered once, and a signal goes on with the answer to the
stop that reported it (`Session.signals_pass_through`).  This holds of both kinds of runs, up to the
moment from which the process is not followed any more.

The passages of a run are found step by step: a turn leaves the run at a stop, from which the
process is let run (`Passing.turn`), and each end leaves it where it may stand at last
(`Passage.Ends`).  Signals that a process reports while only its end is waited for are not told of
here.
-/

namespace BranchWatch

namespace Passage

variable {p q : Passage} {failure : Option MonitorError}

/-- Where a run may stand at last, and with which error. -/
inductive Ends : Passage → Option MonitorError → Prop
  | held (e : MonitorError) : Ends held (some e)
  | running (stretch : Stretch) (failure : Option MonitorError) : Ends (running stretch) failure
  | ended (failure : Option MonitorError) : Ends ended failure
  | gone (failure : Option MonitorError) : Ends gone failure
  /-- A process that is gone is no error. -/
  | refused (signal : Option Signal) {e : Errno} {failure : Option MonitorError}
      (h : e = .noProcess ∨ failure ≠ none) : Ends (refused signal e) failure
  /-- What is done at a system call has failed. -/
  | stopped (stretch : Stretch) (e : MonitorError) : Ends (stopped stretch .syscall) (some e)

theorem Ends.fail (h : p.Ends failure) (e : MonitorError) : p.Ends (some e) := by
  cases h with
  | held => exact .held e
  | running stretch => exact .running stretch _
  | ended => exact .ended _
  | gone => exact .gone _
  | refused signal h => exact .refused signal (.inr nofun)
  | stopped stretch => exact .stopped stretch e

end Passage

namespace Session

variable {κ δ : Type} {s s' : Session κ δ} {p q : Passage} {a : Act δ}

/-- What was done, in order, as long as the process was followed. -/
def course (s : Session κ δ) : List (Act δ) := untilOver s.acts.reverse

/-- The run stands there. -/
structure Passing (p : Passage) (s : Session κ δ) : Prop where
  fits : s.buffer.capacity = s.config.windowCapacity
  course : Passage.Path .held s.course p

namespace Passing

theorem any_isOver (h : s.Passing p) : s.acts.reverse.any (·.isOver) = p.isFinal := by
  rw [← any_isOver_untilOver]
  exact h.course.any_isOver rfl

theorem did (h : s.Passing p) (ha : p.Step a q) : (s.did a).Passing q := by
  refine ⟨h.fits, ?_⟩
  have hover : s.acts.reverse.any (·.isOver) = false := h.any_isOver.trans ha.isFinal_eq.1
  unfold Session.course
  rw [did_acts, List.reverse_cons, untilOver_concat hover]
  exact h.course.append (.cons ha (.nil q))

/-- Behind the end nothing is counted. -/
theorem rest (h : s.Passing p) (hp : p.isFinal = true) (a : Act δ) : (s.did a).Passing p := by
  refine ⟨h.fits, ?_⟩
  unfold Session.course
  rw [did_acts, List.reverse_cons, untilOver_concat_of_over (h.any_isOver.trans hp)]
  exact h.course

theorem lasting (hp : p.isFinal = true) : RunStep.Lasting (Passing (κ := κ) (δ := δ) p) :=
  ⟨fun _ _ h => h.rest hp _, fun _ _ _ h => h.rest hp _⟩

/-- What is not told of acts does not count. -/
theorem frame (h : s.Passing p) (hbuffer : s'.buffer = s.buffer) (hconfig : s'.config = s.config)
    (hacts : s'.acts = s.acts) : s'.Passing p := by
  refine ⟨?_, ?_⟩
  · rw [hbuffer, hconfig, h.fits]
  · unfold Session.course
    rw [hacts]
    exact h.course

theorem start (config : MonitorConfig) (capture : κ) (decoder : δ) (tracee : Tracee) :
    (Session.start config capture decoder tracee).Passing .held := ⟨rfl, .nil _⟩

/-- The answer that the process is gone ends the passages. -/
theorem vanish {stretch : Stretch} (h : s.Passing (.running stretch))
    (state : Except TraceeError ProcessState)
    (hstate : ∀ pid event, state ≠ .ok (.stopped pid event)) :
    (s.did (.waited state)).Passing .gone :=
  h.did (.vanish stretch hstate)

/-- What is done at last leaves the run at its end. -/
theorem farewell {failure : Option MonitorError} (h : s.Passing p) (hends : p.Ends failure)
    (ha : a.isFarewell = true) : ∃ q, (s.did a).Passing q ∧ q.Ends failure := by
  have hinternal : a.isInternal = true := by
    cases a <;> first | rfl | cases ha
  cases hends with
  | held e => exact ⟨_, h.did (.prepare hinternal), .held e⟩
  | running stretch => exact ⟨_, h.did (.leave stretch ha), .ended _⟩
  | ended => exact ⟨_, h.did (.stay ha), .ended _⟩
  | gone => exact ⟨_, h.rest rfl a, .gone _⟩
  | refused signal he => exact ⟨_, h.rest rfl a, .refused signal he⟩
  | stopped stretch e => exact ⟨_, h.did (.work stretch hinternal), .stopped stretch e⟩

section

variable [TraceCapture κ]

theorem disabled {failure : Option MonitorError} (h : s.Passing p) (hends : p.Ends failure) :
    ∃ q, s.disabled.Passing q ∧ q.Ends failure := by
  have hstopped : { s with capture := (TraceCapture.disable s.capture).2 }.Passing p :=
    h.frame rfl rfl rfl
  exact hstopped.farewell hends rfl

/-- At a system call the capture may be stopped. -/
theorem disabled_at_call {stretch : Stretch} (h : s.Passing (.stopped stretch .syscall)) :
    s.disabled.Passing (.stopped stretch .syscall) := by
  have hstopped : { s with capture := (TraceCapture.disable s.capture).2 }.Passing
      (.stopped stretch .syscall) := h.frame rfl rfl rfl
  exact hstopped.did (.work stretch rfl)

/-- At a system call the capture may be started, as before the first stretch. -/
theorem enabled (h : s.Passing p) (hp : p = .held ∨ ∃ stretch, p = .stopped stretch .syscall) :
    s.enabled.Passing p := by
  have h' : { s with capture := (TraceCapture.enable s.capture).2 }.Passing p :=
    h.frame rfl rfl rfl
  obtain rfl | ⟨stretch, rfl⟩ := hp
  · exact h'.did (.prepare rfl)
  · exact h'.did (.work stretch rfl)

end

end Passing

end Session

namespace RunStep

variable {κ δ α : Type} {s s' : Session κ δ} {p : Passage}

/-- Behind the step the run stands where it may stand at last. -/
def Passes (result : EStateM.Result MonitorError (Session κ δ) α) : Prop :=
  ∃ p, (behind result).Passing p ∧ p.Ends (failure? result)

/-- The process could not be let run. -/
theorem passes_unresumed {signal : Option Signal} {e : Errno}
    (h : s.Passing (.refused signal e)) (waits : List WaitAnswer) :
    Passes (unresumed e waits s) := by
  refine ⟨_, (Session.Passing.lasting rfl).unresumed e waits s h, .refused signal ?_⟩
  unfold unresumed
  by_cases he : e = .noProcess
  · exact .inl he
  · rw [if_neg he]
    exact .inr nofun

variable [TraceCapture κ]

theorem passes_leaving {last : RunStep κ δ α} (h : Passes (last s)) (stretch : Stretch) :
    Passes (leaving stretch last s) := by
  by_cases hstretch : stretch = .user
  · subst hstretch
    obtain ⟨p, hp, hends⟩ := h
    obtain ⟨q, hq, hends⟩ := hp.disabled hends
    refine ⟨q, behind_leaving_user last s ▸ hq, ?_⟩
    rw [failure?_leaving_user]
    cases (TraceCapture.disable (behind (last s)).capture).1 with
    | ok _ => exact hends
    | error e => exact hends.fail _
  · rw [leaving_of_ne hstretch]
    exact h

end RunStep

namespace Session.Passing

variable {κ δ : Type} {s s' : Session κ δ} {p : Passage} {stretch stretch' : Stretch}

theorem noted {event : StopEvent} (h : s.Passing (.stopped stretch event)) (ns : List Notice) :
    (s.said ns).Passing (.stopped stretch event) := by
  induction ns with
  | nil => exact h
  | cons n ns ih => exact ih.did (.say stretch event n)

/-- The process cannot be let run, and the stretch is left. -/
theorem unresumed [TraceCapture κ] {event : StopEvent} (h : s.Passing (.stopped stretch event))
    (hstretch : event = .syscall ∨ stretch' = stretch) (e : Errno) (waits : List WaitAnswer) :
    RunStep.Passes (RunStep.leaving stretch' (RunStep.unresumed e waits)
      (s.did (.resumed stretch' event.signal? (some e)))) :=
  RunStep.passes_leaving (RunStep.passes_unresumed (h.did (.resumeFails hstretch e)) waits) stretch'

variable [TraceCapture κ] [TraceDecoder δ] {waits : List WaitAnswer}

/-- The window is looked at and decoded. -/
theorem closed {counted : Nat} {reason : Option Reason} (h : s.Passing (.stopped stretch .syscall))
    (hclosed : RunStep.Closed s counted reason s') : s'.Passing (.stopped stretch .syscall) := by
  obtain ⟨first, second, third, hacts⟩ := hclosed.acts
  have hread := (h.noted first).did (a := .readWindow (TraceCapture.window s.capture))
    (.work stretch rfl)
  have hdecoded := ((hread.noted second).did (a := .decoded s.decodeAnew s.opening)
    (.work stretch rfl)).noted third
  refine ⟨?_, ?_⟩
  · rw [hclosed.capacity, hclosed.config, h.fits]
  · unfold Session.course
    rw [hacts]
    exact hdecoded.course

/-- A turn leads to a stop, and the process is to run on with the signal of the stop. -/
theorem turn {a : WaitAnswer} {signal : Option Signal} (h : s.Passing (.running stretch))
    (hturn : RunStep.Turn a stretch s stretch' signal s') :
    ∃ event : StopEvent, s'.Passing (.stopped stretch event) ∧ signal = event.signal? ∧
      (event = .syscall ∨ stretch' = stretch) := by
  cases hturn with
  | @entry _ _ pid ha hdisable hentry =>
      have hcall := (h.did (.stop .user pid .syscall)).disabled_at_call
      exact ⟨.syscall, hcall.closed (RunStep.atEntry_ok hcall.fits hentry), rfl, .inl rfl⟩
  | @exit _ _ pid hstretch ha henable =>
      exact ⟨.syscall, (h.did (.stop stretch pid .syscall)).enabled (.inr ⟨_, rfl⟩), rfl, .inl rfl⟩
  | @signal _ _ pid signal ha =>
      exact ⟨.signal signal, (h.did (.stop stretch pid _)).did (.say stretch _ _), rfl, .inr rfl⟩
  | @exec _ _ pid former ha =>
      have h' := (h.did (.stop stretch pid (.exec former))).did (.say stretch _ .calledExec)
      exact ⟨.exec former, h'.frame rfl rfl rfl, rfl, .inr rfl⟩
  | @other _ _ pid event ha hsyscall hsignal hexec =>
      refine ⟨event, h.did (.stop stretch pid event), ?_, .inr rfl⟩
      cases event <;> first | rfl | exact absurd rfl (hsignal _)

omit [TraceCapture κ] [TraceDecoder δ] in
/-- The process is killed because of a suspicious window. -/
theorem condemn {stop : StopAnswers} {reason : Reason} (h : s.Passing (.stopped stretch .syscall)) :
    RunStep.Passes (RunStep.condemn stop waits reason s) := by
  have hover := (lasting rfl).terminate stop waits s (h.did (.kill stretch stop.kill))
  unfold RunStep.condemn
  rw [RunStep.bind_apply]
  cases hterminate : RunStep.terminate stop waits s with
  | ok status m =>
      rw [hterminate] at hover
      exact ⟨.gone, hover.frame rfl rfl rfl, .gone _⟩
  | error e m =>
      rw [hterminate] at hover
      exact ⟨.gone, hover, .gone _⟩

theorem ends {result : EStateM.Result MonitorError (Session κ δ) (Option ExitStatus)}
    (h : s.Passing (.running stretch)) (hends : RunStep.Ends stretch waits s result) :
    RunStep.Passes result := by
  cases hends with
  | nobody => exact RunStep.passes_leaving ⟨_, h, .running _ _⟩ stretch
  | unwaited ha he =>
      exact RunStep.passes_leaving ⟨_, (RunStep.behind_lost _ s).symm ▸ h, .running _ _⟩ stretch
  | @died _ _ waits _ pid ha =>
      have hover := h.vanish (.error (.died pid)) nofun
      exact RunStep.passes_leaving ⟨_, (lasting rfl).reap waits _ hover, .gone _⟩ stretch
  | @untold _ _ _ _ e ha =>
      have hover := h.vanish (.error (.errno e)) nofun
      exact RunStep.passes_leaving ⟨_, (RunStep.behind_lost e _).symm ▸ hover, .gone _⟩ stretch
  | @exited _ _ _ _ pid status ha =>
      have hover := h.vanish (.ok (.exited pid status)) nofun
      exact RunStep.passes_leaving ⟨_, hover, .gone _⟩ stretch
  | @undisabled _ _ _ pid e ha hdisable =>
      exact ⟨_, (h.did (.stop .user pid .syscall)).disabled_at_call, .stopped .user _⟩
  | @failed _ _ _ _ pid e ha hdisable hentry =>
      have hcall := (h.did (.stop .user pid .syscall)).disabled_at_call
      rcases RunStep.atEntry_error hcall.fits hentry with ⟨-, rfl, -⟩ | ⟨-, hclosed, -⟩
      · exact ⟨_, hcall.frame rfl rfl rfl, .stopped .user _⟩
      · exact ⟨_, hcall.closed hclosed, .stopped .user _⟩
  | @condemned a waits _ m pid reason ha hdisable hentry =>
      have hcall := (h.did (.stop .user pid .syscall)).disabled_at_call
      exact (hcall.closed (RunStep.atEntry_ok hcall.fits hentry)).condemn
  | @unenabled _ _ _ _ pid e hstretch ha henable =>
      exact ⟨_, (h.did (.stop stretch pid .syscall)).enabled (.inr ⟨_, rfl⟩), .stopped stretch _⟩
  | @unresumed _ stretch' _ waits _ _ _ e hturn hresume =>
      obtain ⟨event, h', rfl, hstretch⟩ := h.turn hturn
      exact h'.unresumed hstretch e waits

/-! ## Runs that stop at system calls -/

theorem follow (h : s.Passing (.running stretch)) (waits : List WaitAnswer) :
    RunStep.Passes (RunStep.follow stretch waits s) := by
  refine (RunStep.runs_follow stretch waits s).conclude
    (P := fun stretch s => s.Passing (.running stretch)) ?_ ends h
  intro a stretch s stretch' signal s' hs hturn
  obtain ⟨event, h', rfl, hstretch⟩ := hs.turn hturn
  exact h'.did (.resume hstretch)

theorem monitor (h : s.Passing .held) (tracee : Tracee) :
    RunStep.Passes (RunStep.monitor tracee s) := by
  have henabled := h.enabled (.inl rfl)
  rw [RunStep.monitor_eq]
  rcases (TraceCapture.enable s.capture).1 with e | ⟨⟨⟩⟩ <;> simp only
  · exact ⟨.held, henabled, .held _⟩
  · have hrun : RunStep.Passes (RunStep.resuming tracee.first .user none tracee.waits
        (RunStep.follow .user tracee.waits) s.enabled) := by
      rw [RunStep.resuming_eq]
      cases tracee.first.resume with
      | none => exact (henabled.did (.start .user)).follow tracee.waits
      | some e =>
          exact RunStep.passes_leaving
            (RunStep.passes_unresumed (henabled.did (.startFails .user e)) tracee.waits) .user
    obtain ⟨p, hp, hends⟩ := hrun
    cases hresult : RunStep.resuming tracee.first .user none tracee.waits
        (RunStep.follow .user tracee.waits) s.enabled with
    | error e m =>
        rw [hresult] at hp hends
        exact ⟨p, hp, hends⟩
    | ok status m =>
        rw [hresult] at hp hends
        obtain ⟨q, hq, hends⟩ := hp.farewell
          (a := .noted (.finished { m.report with exitStatus := status })) hends rfl
        exact ⟨q, hq.frame rfl rfl rfl, hends⟩

/-! ## Runs that do not -/

omit [TraceDecoder δ] [TraceCapture κ] in
theorem followWhole (h : s.Passing (.running .whole)) (waits : List WaitAnswer) :
    RunStep.Passes (RunStep.followWhole waits s) := by
  induction waits generalizing s with
  | nil => exact ⟨_, h, .running _ _⟩
  | cons a waits ih =>
      rw [RunStep.followWhole_cons]
      rcases a.told with e | e | ⟨pid, event⟩ | ⟨pid, status⟩ <;> simp only
      · split
        · exact ih h
        · exact ⟨_, h, .running _ _⟩
      · exact ⟨_, h.did (.vanish .whole nofun), .gone _⟩
      · have hstop := h.did (.stop .whole pid event)
        rw [RunStep.resumingWhole_eq]
        cases a.resume with
        | none => exact ih (hstop.did (.resume (.inr rfl)))
        | some e => exact RunStep.passes_unresumed (hstop.did (.resumeFails (.inr rfl) e)) waits
      · exact ⟨_, h.did (.vanish .whole nofun), .gone _⟩

omit [TraceDecoder δ] in
theorem captureWhole (h : s.Passing .held) (tracee : Tracee) :
    RunStep.Passes (RunStep.captureWhole tracee s) := by
  have henabled := h.enabled (.inl rfl)
  rw [RunStep.captureWhole_eq]
  rcases (TraceCapture.enable s.capture).1 with e | ⟨⟨⟩⟩ <;> simp only
  · exact ⟨.held, henabled, .held _⟩
  · have hrun : RunStep.Passes (RunStep.resumingWhole tracee.first none tracee.waits
        (RunStep.followWhole tracee.waits) s.enabled) := by
      rw [RunStep.resumingWhole_eq]
      cases tracee.first.resume with
      | none => exact (henabled.did (.start .whole)).followWhole tracee.waits
      | some e => exact RunStep.passes_unresumed (henabled.did (.startFails .whole e)) tracee.waits
    obtain ⟨p, hp, hends⟩ := hrun
    cases hresult : RunStep.resumingWhole tracee.first none tracee.waits
        (RunStep.followWhole tracee.waits) s.enabled with
    | error e m =>
        rw [hresult] at hp hends
        exact ⟨p, hp, hends⟩
    | ok status m =>
        rw [hresult] at hp hends
        obtain ⟨q, hq, hends⟩ := hp.disabled hends
        simp only
        rcases (TraceCapture.disable m.capture).1 with e | ⟨⟨⟩⟩ <;> simp only
        · exact ⟨q, hq, hends.fail _⟩
        · obtain ⟨q, hq, hends⟩ := hq.farewell (a := .noted .timed) hends rfl
          exact ⟨q, hq.frame rfl rfl rfl, hends⟩

end Session.Passing

namespace Session

variable {κ δ : Type} [TraceCapture κ] [TraceDecoder δ]

/-- A run is the one of its kind. -/
theorem run_cases (config : MonitorConfig) (capture : κ) (decoder : δ) (tracee : Tracee) :
    let run := Session.run config capture decoder tracee
    let result := (if config.diagnostics.traceTimeOnly then .captureWhole tracee
      else .monitor tracee : RunStep κ δ Report) (start config capture decoder tracee)
    (∃ report, run.1 = .ok report ∧ result = .ok report run.2) ∨
      ∃ e, run.1 = .error e ∧ result = .error e run.2 := by
  intro run result
  show (∃ report, (Session.run config capture decoder tracee).1 = .ok report ∧
      result = .ok report (Session.run config capture decoder tracee).2) ∨
    ∃ e, (Session.run config capture decoder tracee).1 = .error e ∧
      result = .error e (Session.run config capture decoder tracee).2
  have hresult : ((if config.diagnostics.traceTimeOnly then .captureWhole tracee
      else .monitor tracee : RunStep κ δ Report) (start config capture decoder tracee)) =
    result := rfl
  unfold Session.run
  simp only [hresult]
  cases result with
  | ok report s => exact .inl ⟨report, rfl, rfl⟩
  | error e s => exact .inr ⟨e, rfl, rfl⟩

/-- Where a run of either kind stands at last. -/
theorem exists_passing (config : MonitorConfig) (capture : κ) (decoder : δ) (tracee : Tracee) :
    let run := Session.run config capture decoder tracee
    ∃ p failure, run.2.Passing p ∧ p.Ends failure ∧ (failure ≠ none → ∃ e, run.1 = .error e) := by
  intro run
  have hstart := Passing.start config capture decoder tracee
  have hpasses : RunStep.Passes ((if config.diagnostics.traceTimeOnly then .captureWhole tracee
      else .monitor tracee : RunStep κ δ Report) (start config capture decoder tracee)) := by
    split
    · exact hstart.captureWhole tracee
    · exact hstart.monitor tracee
  obtain ⟨p, hp, hends⟩ := hpasses
  obtain ⟨report, hanswer, hresult⟩ | ⟨e, hanswer, hresult⟩ :=
    run_cases config capture decoder tracee
  · rw [hresult] at hp hends
    exact ⟨p, none, hp, hends, fun h => absurd rfl h⟩
  · rw [hresult] at hp hends
    exact ⟨p, some e, hp, hends, fun _ => ⟨e, hanswer⟩⟩

/-! ## The windows that are counted -/

omit [TraceCapture κ] [TraceDecoder δ] in
/-- A process that does not stop at system calls is followed without a word in the report. -/
theorem report_followWhole (waits : List WaitAnswer) (s : Session κ δ) :
    (RunStep.behind (RunStep.followWhole waits s)).report = s.report := by
  have hlasting (report : Report) : RunStep.Lasting fun s : Session κ δ => s.report = report :=
    ⟨fun _ _ h => h, fun _ _ _ h => h⟩
  induction waits generalizing s with
  | nil => rfl
  | cons a waits ih =>
      rw [RunStep.followWhole_cons]
      rcases a.told with e | e | ⟨pid, event⟩ | ⟨pid, status⟩ <;> simp only
      · split
        · exact ih s
        · rfl
      · rfl
      · rw [RunStep.resumingWhole_eq]
        cases a.resume with
        | none => exact ih _
        | some e => exact (hlasting s.report).unresumed e waits _ rfl
      · rfl

omit [TraceDecoder δ] in
theorem windows_captureWhole {tracee : Tracee} {report : Report} {s s' : Session κ δ}
    (h : RunStep.captureWhole tracee s = .ok report s') :
    report.windows = s.report.windows := by
  have hfirst : (RunStep.behind (RunStep.resumingWhole tracee.first none tracee.waits
      (RunStep.followWhole tracee.waits) s.enabled)).report = s.report := by
    rw [RunStep.resumingWhole_eq]
    cases tracee.first.resume with
    | none => exact report_followWhole tracee.waits _
    | some e =>
        have hlasting : RunStep.Lasting fun m : Session κ δ => m.report = s.report :=
          ⟨fun _ _ h => h, fun _ _ _ h => h⟩
        exact hlasting.unresumed e tracee.waits _ rfl
  rw [RunStep.captureWhole_eq] at h
  rcases henable : (TraceCapture.enable s.capture).1 with e | ⟨⟨⟩⟩ <;> rw [henable] at h <;>
    simp only at h
  · cases h
  · cases hresult : RunStep.resumingWhole tracee.first none tracee.waits
        (RunStep.followWhole tracee.waits) s.enabled with
    | error e m =>
        rw [hresult] at h
        cases h
    | ok status m =>
        rw [hresult] at h hfirst
        simp only at h
        rcases hdisable : (TraceCapture.disable m.capture).1 with e | ⟨⟨⟩⟩ <;>
          rw [hdisable] at h <;> simp only at h
        · cases h
        · cases h
          have hwindows : m.report.windows = s.report.windows := congrArg Report.windows hfirst
          exact hwindows

/-- Windows are counted at the entries to system calls. -/
theorem windows_monitor {config : MonitorConfig} {capture : κ} {decoder : δ} {tracee : Tracee}
    {report : Report} {s : Session κ δ}
    (h : RunStep.monitor tracee (start config capture decoder tracee) = .ok report s) :
    report.windows = callStops .user s.acts := by
  obtain ⟨m, status, hm, rfl, hacts⟩ := concluded_of_monitor h
  have hstops : callStops .user s.acts = callStops .user m.acts := by
    rw [hacts]
    rfl
  rw [hstops, hm.entries, hm.report, Report.ofOpenings_eq]

/-- **Signals pass through unchanged.**  As long as the process is followed, each stop is answered
by exactly one request to let it run, with the signal that the stop reports, if it is one that does.
Only at a system call may the process be killed instead, or may the run fail before it answers.  So
the signals that go on are those that were reported, in order, but for one that was refused at last:
because the process was gone, or the run fails.  Other stops than those at system calls end no
stretch and no window: nothing is done there but to note them, and windows are counted at the
entries to system calls only. -/
theorem signals_pass_through (config : MonitorConfig) (capture : κ) (decoder : δ)
    (tracee : Tracee) :
    let run := Session.run config capture decoder tracee
    let course := run.2.course
    (∀ (before after : List (Act δ)) (pid : Int) (event : StopEvent),
      course = before ++ .waited (.ok (.stopped pid event)) :: after →
      (answers after = [.run event.signal?] ∨
        (event = .syscall ∧ (answers after = [.kill] ∨
          (answers after = [] ∧ ∃ e, run.1 = .error e)))) ∧
      (event ≠ .syscall → ∃ (init rest : List (Act δ)) (ns : List Notice) (stretch : Stretch)
          (signal : Option Signal) (failure : Option Errno),
        before = init ++ [.resumed stretch signal none] ∧
          after = ns.map .noted ++ .resumed stretch event.signal? failure :: rest)) ∧
    (course.filterMap Act.reported? = course.filterMap Act.injected? ∨
      ∃ (init : List (Act δ)) (stretch : Stretch) (signal : Signal) (e : Errno),
        course = init ++ [.resumed stretch (some signal) (some e)] ∧
        course.filterMap Act.reported? = course.filterMap Act.injected? ++ [signal] ∧
        (e = .noProcess ∨ ∃ failure, run.1 = .error failure)) ∧
    (∀ report, run.1 = .ok report → report.windows =
      if config.diagnostics.traceTimeOnly then 0 else callStops .user run.2.acts) := by
  intro run course
  obtain ⟨p, failure, hp, hends, hfailure⟩ := exists_passing config capture decoder tracee
  have hpath : Passage.Path .held course p := hp.course
  refine ⟨fun before after pid event hcourse => ?_, ?_, fun report hreport => ?_⟩
  · rw [hcourse] at hpath
    obtain ⟨q, hbefore, hstop⟩ := hpath.split
    cases hstop with
    | cons ha hafter =>
        cases ha with
        | vanish _ h => exact absurd rfl (h pid event)
        | prepare h | leave _ h | stay h | work _ h => cases h
        | stop stretch =>
            have hunanswered (h : p = .stopped stretch event) :
                event = .syscall ∧ ∃ e, run.1 = .error e := by
              subst h
              cases hends with
              | stopped stretch e => exact ⟨rfl, hfailure nofun⟩
            refine ⟨?_, fun hevent => ?_⟩
            · obtain hrun | ⟨hevent, hkill⟩ | ⟨hnone, hlast⟩ := hafter.answers_of_stopped
              · exact .inl hrun
              · exact .inr ⟨hevent, .inl hkill⟩
              · obtain ⟨hevent, hfails⟩ := hunanswered hlast
                exact .inr ⟨hevent, .inr ⟨hnone, hfails⟩⟩
            · obtain ⟨init, signal, hinit⟩ := hbefore.last_of_running
              obtain hlast | ⟨ns, failure, rest, hrest⟩ := hafter.resumed_of_stopped hevent
              · exact absurd (hunanswered hlast).1 hevent
              · exact ⟨init, rest, ns, stretch, signal, failure, hinit, hrest⟩
  · have hsignals : course.filterMap Act.reported? =
        course.filterMap Act.injected? ++ p.pending := hpath.pending_append
    cases hends with
    | @refused signal e failure he =>
        cases signal with
        | none => exact .inl (by simpa [Passage.pending] using hsignals)
        | some signal =>
            obtain ⟨init, stretch, hlast⟩ := hpath.last_of_refused
            exact .inr ⟨init, stretch, signal, e, hlast, hsignals, he.imp_right hfailure⟩
    | _ => exact .inl (by simpa [Passage.pending, StopEvent.signal?] using hsignals)
  · obtain ⟨report', hanswer, hresult⟩ | ⟨e, hanswer, -⟩ :=
      run_cases config capture decoder tracee
    · obtain rfl : report' = report := Except.ok.inj (hanswer.symm.trans hreport)
      split at hresult
      next hmode => rw [if_pos hmode, windows_captureWhole hresult]; rfl
      next hmode => rw [if_neg hmode, windows_monitor hresult]
    · rw [hreport] at hanswer
      cases hanswer

/-- A process dies while it is held at its second signal, which does not go on. -/
example :
    let signal (s : Signal) : WaitAnswer := { status := .ok (.stopped 7 s) }
    let tracee : Tracee :=
      { pid := 7
        waits := [signal .usr1, { signal .term with resume := some .noProcess },
          { status := .ok (.signaled 7 .kill false) }] }
    let course := (Session.run {} (ScriptedCapture.constant [0]) ScriptedDecoder.consistent
      tracee).2.course
    course.filterMap Act.reported? = [.usr1, .term] ∧ course.filterMap Act.injected? = [.usr1] := by
  decide +kernel

end Session

end BranchWatch
