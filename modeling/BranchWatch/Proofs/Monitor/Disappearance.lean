import BranchWatch.Monitor.Scripted
import BranchWatch.Proofs.Monitor.Slices

/-!
# The process may disappear

A process can die, or be waited for by somebody else, at any moment.  Then a request to it fails
because there is no such process, and waiting fails because there is no such child.  If nothing else
goes wrong (`Tracee.OnlyGone`) and the capture can be switched, then a run comes to a report and the
capture is off behind it.  A run that waits for a line at each window breaks off if there is none
(`Unread`), which has nothing to do with the process; the capture is off then as well.

One place does not keep to this.  In a run that does not stop at system calls, a running process that
is found gone by waiting (`FoundGone`) ends the run with an error, and the capture stays on.  A run
that stops at system calls takes the same answers for the end of the process.
`Session.reports_unless_found_gone` says that this is the only exception, and
`Session.found_gone_is_an_error` shows it.
-/

namespace BranchWatch

/-- A request fails only because the process is gone. -/
structure StopAnswers.OnlyGone (a : StopAnswers) : Prop where
  message : ∀ e, a.message = .error e → e = .noProcess
  registers : ∀ e, a.registers = .error e → e = .noProcess
  resume : ∀ e, a.resume = some e → e = .noProcess
  kill : ∀ e, a.kill = some e → e = .noProcess

/-- Waiting fails only because it is interrupted or nobody is there to wait for; what it tells is
what one can wait for. -/
structure WaitAnswer.OnlyGone (a : WaitAnswer) : Prop where
  stop : a.toStopAnswers.OnlyGone
  status : ∀ e, a.status = .error e → e = .noChild ∨ e = .interrupted
  stillAlive : a.status ≠ .ok .stillAlive
  continued : ∀ pid, a.status ≠ .ok (.continued pid)

/-- All that can go wrong with the process is that it is gone. -/
structure Tracee.OnlyGone (t : Tracee) : Prop where
  first : t.first.OnlyGone
  waits : ∀ a ∈ t.waits, a.OnlyGone
  afterKill : ∀ a ∈ t.afterKill, a.OnlyGone

theorem StopAnswers.OnlyGone.default : ({} : StopAnswers).OnlyGone :=
  ⟨nofun, nofun, nofun, nofun⟩

/-- A process that gives one answer and is gone behind it. -/
theorem Tracee.OnlyGone.single (pid : Int) {a : WaitAnswer} (h : a.OnlyGone) :
    ({ pid, waits := [a] } : Tracee).OnlyGone where
  first := .default
  waits := List.forall_mem_singleton.2 h
  afterKill := List.forall_mem_nil _

/-- The error is that no line could be read at one of the stops, where the run waits for one. -/
def Unread (settings : MonitorConfig) (stops : List WaitAnswer) (e : MonitorError) : Prop :=
  settings.diagnostics.traceTimeOnly = false ∧ settings.diagnostics.step = true ∧
    ∃ a ∈ stops, ∃ cause, a.unreadable = some cause ∧ e = .io cause

/-- Up to the first answer that tells it, the process is let run again and again, and then waiting
finds that it is gone. -/
inductive FoundGone : List WaitAnswer → Prop
  | nobody : FoundGone []
  | lost {a : WaitAnswer} {waits : List WaitAnswer} (ha : a.told = .error .noChild) :
      FoundGone (a :: waits)
  /-- It dies before it can be asked about an event. -/
  | died {a : WaitAnswer} {waits : List WaitAnswer} {pid : Int}
      (ha : a.told = .ok (.error (.died pid))) : FoundGone (a :: waits)
  | again {a : WaitAnswer} {waits : List WaitAnswer} (ha : a.told = .error .interrupted)
      (h : FoundGone waits) : FoundGone (a :: waits)
  | onward {a : WaitAnswer} {waits : List WaitAnswer} {pid : Int} {event : StopEvent}
      (ha : a.told = .ok (.ok (.stopped pid event))) (hresume : a.resume = none)
      (h : FoundGone waits) : FoundGone (a :: waits)

namespace WaitAnswer

variable {a : WaitAnswer}

/-- If the process cannot be asked about an event, it has died. -/
theorem OnlyGone.state (h : a.OnlyGone) {status : WaitStatus} (hstatus : a.status = .ok status) :
    (∃ state, a.state status = .ok state) ∨ ∃ pid, a.state status = .error (.died pid) := by
  cases status with
  | exited pid code => exact .inl ⟨_, rfl⟩
  | signaled pid signal coreDumped => exact .inl ⟨_, rfl⟩
  | stopped pid signal => exact .inl ⟨_, rfl⟩
  | syscallStop pid => exact .inl ⟨_, rfl⟩
  | continued pid => exact absurd hstatus (h.continued pid)
  | stillAlive => exact absurd hstatus h.stillAlive
  | traceEvent pid signal event =>
      show (∃ state, ProcessState.ofEvent pid a.message event = .ok state) ∨
        ∃ pid', ProcessState.ofEvent pid a.message event = .error (.died pid')
      unfold ProcessState.ofEvent
      split
      · cases hmessage : a.message with
        | ok former => exact .inl ⟨_, rfl⟩
        | error e =>
            obtain rfl := h.stop.message e hmessage
            exact .inr ⟨pid, rfl⟩
      · split
        · exact .inl ⟨_, rfl⟩
        · split <;> exact .inl ⟨_, rfl⟩

/-- What is told is what the status means. -/
theorem told_cases (a : WaitAnswer) :
    (∃ e, a.status = .error e ∧ a.told = .error e) ∨
      ∃ status, a.status = .ok status ∧ a.told = .ok (a.state status) := by
  unfold told
  cases hstatus : a.status with
  | error e => exact .inl ⟨e, rfl, rfl⟩
  | ok status => exact .inr ⟨status, rfl, rfl⟩

theorem OnlyGone.told_ne_errno (h : a.OnlyGone) (e : Errno) : a.told ≠ .ok (.error (.errno e)) := by
  intro ha
  rcases a.told_cases with ⟨e', -, htold⟩ | ⟨status, hstatus, htold⟩
  · rw [htold] at ha
    cases ha
  · rw [htold] at ha
    rcases h.state hstatus with ⟨state, hstate⟩ | ⟨pid, hstate⟩ <;> rw [hstate] at ha <;> cases ha

theorem OnlyGone.told_error (h : a.OnlyGone) {e : Errno} (ha : a.told = .error e) :
    e = .noChild ∨ e = .interrupted := by
  rcases a.told_cases with ⟨e', hstatus, htold⟩ | ⟨status, -, htold⟩ <;> rw [htold] at ha <;> cases ha
  exact h.status e hstatus

end WaitAnswer

/-- The capture could not be switched. -/
def Act.isCaptureFailure {δ : Type} : Act δ → Bool
  | enabled (.error _) | disabled (.error _) => true
  | _ => false

namespace Session

variable {κ δ : Type} [TraceCapture κ] {s : Session κ δ}

theorem enable_ok (h : ∀ a ∈ s.enabled.acts, a.isCaptureFailure = false) :
    (TraceCapture.enable s.capture).1 = .ok () := by
  have hlast := h _ List.mem_cons_self
  rcases henable : (TraceCapture.enable s.capture).1 with e | ⟨⟨⟩⟩
  · rw [henable] at hlast
    cases hlast
  · rfl

theorem disable_ok (h : ∀ a ∈ s.disabled.acts, a.isCaptureFailure = false) :
    (TraceCapture.disable s.capture).1 = .ok () := by
  have hlast := h _ List.mem_cons_self
  rcases hdisable : (TraceCapture.disable s.capture).1 with e | ⟨⟨⟩⟩
  · rw [hdisable] at hlast
    cases hlast
  · rfl

end Session

namespace RunStep

variable {κ δ α : Type} {s s' : Session κ δ} {settings : MonitorConfig}
  {waits stops : List WaitAnswer}

/-- If this is a failure, the capture is to blame, or that no line could be read. -/
def BlamesOthers (settings : MonitorConfig) (stops : List WaitAnswer)
    (result : EStateM.Result MonitorError (Session κ δ) α) : Prop :=
  ∀ e, failure? result = some e →
    Unread settings stops e ∨ ∃ a ∈ (behind result).acts, a.isCaptureFailure = true

theorem blamesOthers_of_eq_none {result : EStateM.Result MonitorError (Session κ δ) α}
    (h : failure? result = none) : BlamesOthers settings stops result := by
  intro e he
  rw [h] at he
  cases he

theorem failure?_lost (s : Session κ δ) : failure? (lost .noChild s) = none := rfl

/-- A process that is gone can be waited for. -/
theorem failure?_reap (hwaits : ∀ a ∈ waits, a.OnlyGone) (s : Session κ δ) :
    failure? (reap waits s) = none := by
  induction waits generalizing s with
  | nil => rfl
  | cons a waits ih =>
      have ha := hwaits a List.mem_cons_self
      have ih := ih fun b hb => hwaits b (List.mem_cons_of_mem a hb)
      cases hstatus : a.status with
      | error e =>
          simp only [reap, hstatus]
          rcases ha.status e hstatus with rfl | rfl
          · exact failure?_lost s
          · exact ih s
      | ok status =>
          simp only [reap, hstatus]
          rw [bind_apply, interpret_eq]
          rcases ha.state hstatus with ⟨state, hstate⟩ | ⟨pid, hstate⟩ <;> rw [hstate] <;> simp only
          · cases state with
            | exited pid status => rfl
            | stopped pid event =>
                -- If it cannot be let run, it is gone too, and waiting goes on.
                simp only
                rw [bind_apply, resume_eq]
                cases hresume : a.resume with
                | none => exact ih _
                | some e =>
                    obtain rfl := ha.stop.resume e hresume
                    exact ih _
          · exact ih _

theorem failure?_unresumed (hwaits : ∀ a ∈ waits, a.OnlyGone) (s : Session κ δ) :
    failure? (unresumed .noProcess waits s) = none :=
  failure?_reap hwaits s

theorem failure?_terminate {stop : StopAnswers} (hstop : stop.OnlyGone)
    (hwaits : ∀ a ∈ waits, a.OnlyGone) (hkilled : ∀ a ∈ s.afterKill, a.OnlyGone) :
    failure? (terminate stop waits s) = none := by
  unfold terminate
  rw [bind_apply, record_eq]
  cases hkill : stop.kill with
  | none => exact failure?_reap hkilled _
  | some e =>
      obtain rfl := hstop.kill e hkill
      exact failure?_reap hwaits _

theorem failure?_condemn {stop : StopAnswers} {reason : Reason} (hstop : stop.OnlyGone)
    (hwaits : ∀ a ∈ waits, a.OnlyGone) (hkilled : ∀ a ∈ s.afterKill, a.OnlyGone) :
    failure? (condemn stop waits reason s) = none := by
  have hterminate := failure?_terminate hstop hwaits hkilled
  unfold condemn
  rw [bind_apply]
  cases hresult : terminate stop waits s with
  | ok status m => rfl
  | error e m =>
      rw [hresult] at hterminate
      cases hterminate

section

variable [TraceCapture κ]

theorem leaving_blamesOthers {stretch : Stretch} {last : RunStep κ δ α}
    (h : failure? (last s) = none) : BlamesOthers settings stops (leaving stretch last s) := by
  by_cases hstretch : stretch = .user
  · subst hstretch
    intro e he
    rw [failure?_leaving_user] at he
    rw [behind_leaving_user]
    cases hdisable : (TraceCapture.disable (behind (last s)).capture).1 with
    | ok _ =>
        rw [hdisable, h] at he
        cases he
    | error e' => exact .inr ⟨_, List.mem_cons_self, by rw [hdisable]; rfl⟩
  · rw [leaving_of_ne hstretch]
    exact blamesOthers_of_eq_none h

end

end RunStep

namespace Session

variable {κ δ : Type} {s s' : Session κ δ}

/-- The buffer has the size that the settings say, and a process that is killed only disappears. -/
structure Killable (settings : MonitorConfig) (s : Session κ δ) : Prop where
  config : s.config = settings
  fits : s.buffer.capacity = s.config.windowCapacity
  afterKill : ∀ a ∈ s.afterKill, a.OnlyGone

namespace Killable

variable [TraceCapture κ] [TraceDecoder δ] {settings : MonitorConfig}
  {stretch stretch' : Stretch} {waits stops : List WaitAnswer}
  {result : EStateM.Result MonitorError (Session κ δ) (Option ExitStatus)}

theorem closed {counted : Nat} {reason : Option Reason} (h : s.Killable settings)
    (hclosed : RunStep.Closed s counted reason s') : s'.Killable settings := by
  refine ⟨hclosed.config.trans h.config, ?_, ?_⟩
  · rw [hclosed.capacity, hclosed.config, h.fits]
  · rw [hclosed.afterKill]
    exact h.afterKill

omit [TraceDecoder δ] in
/-- The entry of a system call has been reached and the capture was stopped. -/
theorem captured (h : s.Killable settings) (pid : Int) :
    (s.did (.waited (.ok (.stopped pid .syscall)))).disabled.Killable settings :=
  ⟨h.config, h.fits, h.afterKill⟩

theorem turn {a : WaitAnswer} {signal : Option Signal} (h : s.Killable settings)
    (hturn : RunStep.Turn a stretch s stretch' signal s') : s'.Killable settings := by
  cases hturn with
  | @entry _ _ pid ha hdisable hentry =>
      exact (h.captured pid).closed (RunStep.atEntry_ok (h.captured pid).fits hentry)
  | _ => exact ⟨h.config, h.fits, h.afterKill⟩

theorem ends (h : s.Killable settings) (hmode : settings.diagnostics.traceTimeOnly = false)
    (hwaits : ∀ a ∈ waits, a.OnlyGone) (hstops : waits ⊆ stops)
    (hends : RunStep.Ends stretch waits s result) : RunStep.BlamesOthers settings stops result := by
  -- Answers of the process of which the run could complain are not given.
  cases hends with
  | nobody => exact RunStep.leaving_blamesOthers rfl
  | unwaited ha he =>
      obtain rfl := ((hwaits _ List.mem_cons_self).told_error ha).resolve_right he
      exact RunStep.leaving_blamesOthers rfl
  | died ha =>
      exact RunStep.leaving_blamesOthers (RunStep.failure?_reap (List.forall_mem_cons.1 hwaits).2 _)
  | untold ha => exact absurd ha ((hwaits _ List.mem_cons_self).told_ne_errno _)
  | exited ha => exact RunStep.leaving_blamesOthers rfl
  | undisabled ha hdisable =>
      intro e he
      exact .inr ⟨_, List.mem_cons_self, by rw [did_capture, hdisable]; rfl⟩
  | @failed a _ _ _ pid _ ha hdisable hentry =>
      rcases RunStep.atEntry_error (h.captured pid).fits hentry with
        ⟨-, -, e, he, hregisters, -⟩ | ⟨hstep, -, cause, hline, rfl⟩
      · exact absurd ((hwaits _ List.mem_cons_self).stop.registers e hregisters) he
      · rw [(h.captured pid).config] at hstep
        intro e he
        cases he
        exact .inl ⟨hmode, hstep, a, hstops List.mem_cons_self, cause, hline, rfl⟩
  | @condemned a waits _ m pid reason ha hdisable hentry =>
      obtain ⟨hstop, hwaits⟩ := List.forall_mem_cons.1 hwaits
      have hm := (h.captured pid).closed (RunStep.atEntry_ok (h.captured pid).fits hentry)
      exact RunStep.blamesOthers_of_eq_none
        (RunStep.failure?_condemn hstop.stop hwaits hm.afterKill)
  | unenabled hstretch ha henable =>
      intro e he
      exact .inr ⟨_, List.mem_cons_self, by rw [did_capture, henable]; rfl⟩
  | unresumed hturn hresume =>
      obtain ⟨hstop, hwaits⟩ := List.forall_mem_cons.1 hwaits
      obtain rfl := hstop.stop.resume _ hresume
      exact RunStep.leaving_blamesOthers (RunStep.failure?_unresumed hwaits _)

theorem runs (h : s.Killable settings) (hmode : settings.diagnostics.traceTimeOnly = false)
    (hwaits : ∀ a ∈ waits, a.OnlyGone) (hstops : waits ⊆ stops)
    (hruns : RunStep.Runs stretch waits s result) : RunStep.BlamesOthers settings stops result := by
  induction hruns with
  | ended hends => exact h.ends hmode hwaits hstops hends
  | again ha hruns ih =>
      exact ih h (List.forall_mem_cons.1 hwaits).2 (List.cons_subset.1 hstops).2
  | onward hturn hresume hruns ih =>
      have h' := h.turn hturn
      exact ih ⟨h'.config, h'.fits, h'.afterKill⟩ (List.forall_mem_cons.1 hwaits).2
        (List.cons_subset.1 hstops).2

theorem resuming {stop : StopAnswers} (h : s.Killable settings)
    (hmode : settings.diagnostics.traceTimeOnly = false) (hstop : stop.OnlyGone)
    (hwaits : ∀ a ∈ waits, a.OnlyGone) :
    RunStep.BlamesOthers settings waits
      (RunStep.resuming stop .user none waits (RunStep.follow .user waits) s) := by
  rw [RunStep.resuming_eq]
  cases hresume : stop.resume with
  | none =>
      have hrunning : (s.did (.resumed .user none none)).Killable settings :=
        ⟨h.config, h.fits, h.afterKill⟩
      exact hrunning.runs hmode hwaits (List.Subset.refl waits) (RunStep.runs_follow _ _ _)
  | some e =>
      obtain rfl := hstop.resume e hresume
      exact RunStep.leaving_blamesOthers (RunStep.failure?_unresumed hwaits _)

/-- A run that stops at system calls fails only if the capture does, or a line cannot be read. -/
theorem monitor {tracee : Tracee} (h : s.Killable settings)
    (hmode : settings.diagnostics.traceTimeOnly = false) (htracee : tracee.OnlyGone) :
    RunStep.BlamesOthers settings tracee.waits (RunStep.monitor tracee s) := by
  rw [RunStep.monitor_eq]
  rcases henable : (TraceCapture.enable s.capture).1 with e | ⟨⟨⟩⟩ <;> simp only
  · intro e he
    exact .inr ⟨_, List.mem_cons_self, by rw [henable]; rfl⟩
  · have henabled : s.enabled.Killable settings := ⟨h.config, h.fits, h.afterKill⟩
    have hover := henabled.resuming hmode htracee.first htracee.waits
    cases hresult : RunStep.resuming tracee.first .user none tracee.waits
        (RunStep.follow .user tracee.waits) s.enabled with
    | ok status m => exact RunStep.blamesOthers_of_eq_none rfl
    | error e m =>
        rw [hresult] at hover
        exact hover

end Killable

end Session

/-! ## A process that does not stop at system calls -/

/-- The signal that is passed on to a process that is let run. -/
def StopEvent.signal? : StopEvent → Option Signal
  | signal s => some s
  | _ => none

namespace RunStep

variable {κ δ : Type} {waits : List WaitAnswer}

theorem resumingWhole_eq (stop : StopAnswers) (signal : Option Signal) (waits : List WaitAnswer)
    (next : RunStep κ δ (Option ExitStatus)) (s : Session κ δ) :
    resumingWhole stop signal waits next s = match stop.resume with
      | none => next (s.did (.resumed .whole signal none))
      | some e => unresumed e waits (s.did (.resumed .whole signal (some e))) := by
  unfold resumingWhole
  rw [bind_apply, resume_eq]
  cases stop.resume <;> rfl

/-- What an answer does to a run that does not stop at system calls. -/
theorem followWhole_cons (a : WaitAnswer) (waits : List WaitAnswer) (s : Session κ δ) :
    followWhole (a :: waits) s = match a.told with
      | .error e =>
        if e = .interrupted then followWhole waits s else .error (.tracee (.errno e)) s
      | .ok (.error e) => .error (.tracee e) (s.did (.waited (.error e)))
      | .ok (.ok (.exited pid status)) => .ok (some status) (s.did (.waited (.ok (.exited pid status))))
      | .ok (.ok (.stopped pid event)) =>
        resumingWhole a.toStopAnswers event.signal? waits (followWhole waits)
          (s.did (.waited (.ok (.stopped pid event)))) := by
  rcases a.told_cases with ⟨e, hstatus, htold⟩ | ⟨status, hstatus, htold⟩
  · simp only [followWhole, hstatus, htold]
    split <;> rfl
  · simp only [followWhole, hstatus, htold]
    rw [bind_apply, interpret_eq]
    rcases a.state status with e | ⟨pid, event⟩ | ⟨pid, status⟩
    · rfl
    · cases event <;> rfl
    · rfl

/-- A running process that is found gone is an error, and the capture is left as it was. -/
theorem followWhole_of_foundGone (h : FoundGone waits) (s : Session κ δ) :
    ∃ e m, followWhole waits s = .error (.tracee e) m ∧
      (e = .errno .noChild ∨ ∃ pid, e = .died pid) ∧ isCapturing m.acts = isCapturing s.acts := by
  induction h generalizing s with
  | nobody => exact ⟨_, s, rfl, .inl rfl, rfl⟩
  | lost ha =>
      refine ⟨_, s, ?_, .inl rfl, rfl⟩
      rw [followWhole_cons, ha]
      rfl
  | @died _ _ pid ha =>
      refine ⟨_, s.did (.waited (.error (.died pid))), ?_, .inr ⟨pid, rfl⟩, rfl⟩
      rw [followWhole_cons, ha]
  | again ha h ih =>
      rw [followWhole_cons, ha]
      exact ih s
  | @onward _ _ pid event ha hresume h ih =>
      obtain ⟨e, m, hm, he, hcapturing⟩ := ih ((s.did (.waited (.ok (.stopped pid event)))).did
        (.resumed .whole event.signal? none))
      refine ⟨e, m, ?_, he, hcapturing⟩
      rw [followWhole_cons, ha]
      simp only
      rw [resumingWhole_eq, hresume]
      exact hm

/-- A process that ends otherwise is followed to its end. -/
theorem failure?_followWhole (hwaits : ∀ a ∈ waits, a.OnlyGone) (h : ¬FoundGone waits)
    (s : Session κ δ) : failure? (followWhole waits s) = none := by
  induction waits generalizing s with
  | nil => exact absurd .nobody h
  | cons a waits ih =>
      -- An answer with which the run fails is one with which the process is found gone.
      obtain ⟨ha, hwaits⟩ := List.forall_mem_cons.1 hwaits
      rw [followWhole_cons]
      rcases htold : a.told with e | e | ⟨pid, event⟩ | ⟨pid, status⟩ <;> simp only
      · rcases ha.told_error htold with rfl | rfl
        · exact absurd (.lost htold) h
        · exact ih hwaits (fun hgone => h (.again htold hgone)) s
      · cases e with
        | errno e => exact absurd htold (ha.told_ne_errno e)
        | died pid => exact absurd (.died htold) h
      · rw [resumingWhole_eq]
        cases hresume : a.resume with
        | none => exact ih hwaits (fun hgone => h (.onward htold hresume hgone)) _
        | some e =>
            obtain rfl := ha.stop.resume e hresume
            exact failure?_unresumed hwaits _
      · rfl

variable [TraceCapture κ]

/-- The capture is stopped if the process was followed to its end, and only then. -/
theorem captureWhole_eq (tracee : Tracee) (s : Session κ δ) :
    captureWhole tracee s = match (TraceCapture.enable s.capture).1 with
      | .error e => .error (.collector e) s.enabled
      | .ok () =>
        match resumingWhole tracee.first none tracee.waits (followWhole tracee.waits) s.enabled with
        | .error e m => .error e m
        | .ok status m =>
          match (TraceCapture.disable m.capture).1 with
          | .error e => .error (.collector e) m.disabled
          | .ok () =>
            .ok { m.report with exitStatus := status }
              ({ m.disabled with report := { m.report with exitStatus := status } }.did
                (.noted .timed)) := by
  unfold captureWhole
  rw [bind_apply, enable_eq]
  rcases (TraceCapture.enable s.capture).1 with e | ⟨⟨⟩⟩ <;> simp only
  rw [bind_apply]
  cases resumingWhole tracee.first none tracee.waits (followWhole tracee.waits) s.enabled with
  | error e m => rfl
  | ok status m =>
      simp only
      rw [bind_apply, disable_eq]
      rcases (TraceCapture.disable m.capture).1 with e | ⟨⟨⟩⟩ <;> rfl

theorem captureWhole_of_foundGone {tracee : Tracee} (hresume : tracee.first.resume = none)
    (hgone : FoundGone tracee.waits) (s : Session κ δ)
    (hcapture : ∀ a ∈ (behind (captureWhole tracee s)).acts, a.isCaptureFailure = false) :
    ∃ e m, captureWhole tracee s = .error (.tracee e) m ∧
      (e = .errno .noChild ∨ ∃ pid, e = .died pid) ∧ isCapturing m.acts = true := by
  rw [captureWhole_eq] at hcapture ⊢
  rcases henable : (TraceCapture.enable s.capture).1 with e | ⟨⟨⟩⟩ <;>
    rw [henable] at hcapture <;> simp only at hcapture ⊢
  · have hok := Session.enable_ok hcapture
    rw [henable] at hok
    cases hok
  · obtain ⟨e, m, hm, he, hcapturing⟩ :=
      followWhole_of_foundGone hgone (s.enabled.did (.resumed .whole none none))
    rw [resumingWhole_eq, hresume]
    simp only [hm]
    refine ⟨e, m, rfl, he, hcapturing.trans ?_⟩
    show (Act.enabled (δ := δ) (TraceCapture.enable s.capture).1).capturing (isCapturing s.acts) = true
    rw [henable]
    rfl

theorem captureWhole_ok {tracee : Tracee} (htracee : tracee.OnlyGone)
    (h : ¬(tracee.first.resume = none ∧ FoundGone tracee.waits)) (s : Session κ δ)
    (hcapture : ∀ a ∈ (behind (captureWhole tracee s)).acts, a.isCaptureFailure = false) :
    ∃ report m, captureWhole tracee s = .ok report m ∧ isCapturing m.acts = false := by
  have hresult : failure? (resumingWhole tracee.first none tracee.waits
      (followWhole tracee.waits) s.enabled) = none := by
    rw [resumingWhole_eq]
    cases hresume : tracee.first.resume with
    | none => exact failure?_followWhole htracee.waits (fun hgone => h ⟨hresume, hgone⟩) _
    | some e =>
        obtain rfl := htracee.first.resume e hresume
        exact failure?_unresumed htracee.waits _
  rw [captureWhole_eq] at hcapture ⊢
  rcases henable : (TraceCapture.enable s.capture).1 with e | ⟨⟨⟩⟩ <;>
    rw [henable] at hcapture <;> simp only at hcapture ⊢
  · have hok := Session.enable_ok hcapture
    rw [henable] at hok
    cases hok
  · cases hwhole : resumingWhole tracee.first none tracee.waits (followWhole tracee.waits)
        s.enabled with
    | error e m =>
        rw [hwhole] at hresult
        cases hresult
    | ok status m =>
        rw [hwhole] at hcapture
        simp only at hcapture ⊢
        rcases hdisable : (TraceCapture.disable m.capture).1 with e | ⟨⟨⟩⟩ <;>
          rw [hdisable] at hcapture <;> simp only at hcapture ⊢
        · have hok := Session.disable_ok hcapture
          rw [hdisable] at hok
          cases hok
        · exact ⟨_, _, rfl, rfl⟩

end RunStep

namespace Session

variable {κ δ : Type} [TraceCapture κ] [TraceDecoder δ] {config : MonitorConfig} {capture : κ}
  {decoder : δ} {tracee : Tracee} {answer : Except MonitorError Report} {s : Session κ δ}

/-- A run that stops at system calls comes to a report, unless it waits for a line in vain. -/
theorem reports_of_stepping (hmode : config.diagnostics.traceTimeOnly = false)
    (htracee : tracee.OnlyGone) (h : Session.run config capture decoder tracee = (answer, s))
    (hcapture : ∀ a ∈ s.acts, a.isCaptureFailure = false) :
    ((∃ report, answer = .ok report) ∨ ∃ e, answer = .error e ∧ Unread config tracee.waits e) ∧
      isCapturing s.acts = false := by
  obtain ⟨p, failure, hacts, hends, -⟩ := exists_inPhase hmode h
  refine ⟨?_, (Phase.isCapturing_eq hacts).trans hends.isOn_eq⟩
  have hstart : (start config capture decoder tracee).Killable config :=
    ⟨rfl, rfl, htracee.afterKill⟩
  have hblame := hstart.monitor hmode htracee
  rcases RunStep.monitor_of_run hmode h with ⟨report, rfl, -⟩ | ⟨e, rfl, hresult⟩
  · exact .inl ⟨report, rfl⟩
  · rw [hresult] at hblame
    rcases hblame e rfl with hunread | ⟨a, ha, hfailed⟩
    · exact .inr ⟨e, rfl, hunread⟩
    · rw [hcapture a ha] at hfailed
      cases hfailed

/-- **The disappearance of the process is no error**, but in one place.  If the capture can be
switched and all that can go wrong with the process is that it is gone, then the run comes to a
report with the capture off, unless it does not stop at system calls and the running process is
found gone by waiting: then it fails, and the capture stays on.  The only other failure is that a run
which is to go step by step cannot read a line; the capture is off then. -/
theorem reports_unless_found_gone (htracee : tracee.OnlyGone)
    (h : Session.run config capture decoder tracee = (answer, s))
    (hcapture : ∀ a ∈ s.acts, a.isCaptureFailure = false) :
    (¬(config.diagnostics.traceTimeOnly = true ∧ tracee.first.resume = none ∧
        FoundGone tracee.waits) →
      ((∃ report, answer = .ok report) ∨ ∃ e, answer = .error e ∧ Unread config tracee.waits e) ∧
        isCapturing s.acts = false) ∧
    (config.diagnostics.traceTimeOnly = true ∧ tracee.first.resume = none ∧
        FoundGone tracee.waits →
      (∃ e, answer = .error (.tracee e) ∧ (e = .errno .noChild ∨ ∃ pid, e = .died pid)) ∧
        isCapturing s.acts = true) := by
  cases hmode : config.diagnostics.traceTimeOnly with
  | false => exact ⟨fun _ => reports_of_stepping hmode htracee h hcapture, nofun⟩
  | true =>
      unfold Session.run at h
      simp only [hmode, ↓reduceIte] at h
      have hbehind : RunStep.behind
          (RunStep.captureWhole tracee (start config capture decoder tracee)) = s := by
        cases hresult : RunStep.captureWhole tracee (start config capture decoder tracee) <;>
          rw [hresult] at h <;> cases h <;> rfl
      rw [← hbehind] at hcapture
      refine ⟨fun hstays => ?_, fun hgone => ?_⟩
      · obtain ⟨report, m, hm, hoff⟩ := RunStep.captureWhole_ok htracee
          (fun hgone => hstays ⟨rfl, hgone⟩) _ hcapture
        rw [hm] at h
        cases h
        exact ⟨.inl ⟨report, rfl⟩, hoff⟩
      · obtain ⟨e, m, hm, he, hon⟩ := RunStep.captureWhole_of_foundGone hgone.2.1 hgone.2.2 _ hcapture
        rw [hm] at h
        cases h
        exact ⟨⟨e, rfl, he⟩, hon⟩

/-- A process that stops at system calls is reaped by somebody else while it runs. -/
theorem reports_unless_found_gone_reaped :
    let tracee : Tracee := { pid := 7, waits := [{ status := .error .noChild }] }
    let run := Session.run {} (ScriptedCapture.constant [0]) ScriptedDecoder.consistent tracee
    tracee.OnlyGone ∧ run = (run.1, run.2) ∧ (∀ a ∈ run.2.acts, a.isCaptureFailure = false) ∧
      (∃ report, run.1 = .ok report) ∧ isCapturing run.2.acts = false := by
  intro tracee run
  have htracee : tracee.OnlyGone := .single 7 ⟨.default, by simp, nofun, nofun⟩
  have hrun : run = (run.1, run.2) := (Prod.eta run).symm
  have hcapture : ∀ a ∈ run.2.acts, a.isCaptureFailure = false := by decide +kernel
  obtain ⟨hanswer, hoff⟩ := (reports_unless_found_gone htracee hrun hcapture).1 nofun
  refine ⟨htracee, hrun, hcapture, hanswer.resolve_right ?_, hoff⟩
  rintro ⟨e, -, -, hstep, -⟩
  cases hstep

/-- A running process that does not stop at system calls is reaped by somebody else, or it dies before
it can be asked about an exec.  This is an error, and the capture stays on. -/
theorem found_gone_is_an_error :
    (let tracee : Tracee := { pid := 7, waits := [{ status := .error .noChild }] }
      let run := Session.run { diagnostics := { traceTimeOnly := true } }
        (ScriptedCapture.constant [0]) ScriptedDecoder.consistent tracee
      tracee.OnlyGone ∧ (∀ a ∈ run.2.acts, a.isCaptureFailure = false) ∧ run.1.isOk = false ∧
        isCapturing run.2.acts = true) ∧
    (let exec : WaitAnswer :=
        { status := .ok (.traceEvent 7 .trap ProcessState.execEvent), message := .error .noProcess }
      let tracee : Tracee := { pid := 7, waits := [exec] }
      let run := Session.run { diagnostics := { traceTimeOnly := true } }
        (ScriptedCapture.constant [0]) ScriptedDecoder.consistent tracee
      tracee.OnlyGone ∧ (∀ a ∈ run.2.acts, a.isCaptureFailure = false) ∧ run.1.isOk = false ∧
        isCapturing run.2.acts = true) := by
  constructor
  · intro tracee run
    have htracee : tracee.OnlyGone := .single 7 ⟨.default, by simp, nofun, nofun⟩
    exact ⟨htracee, by decide +kernel⟩
  · intro exec tracee run
    have htracee : tracee.OnlyGone :=
      .single 7 ⟨⟨by simp [exec], nofun, nofun, nofun⟩, nofun, nofun, nofun⟩
    exact ⟨htracee, by decide +kernel⟩

end Session

end BranchWatch
