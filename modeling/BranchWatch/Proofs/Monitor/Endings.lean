import BranchWatch.Proofs.Monitor.Turn

/-!
# How a run is brought to its end

When the process is gone, or has to go, a run only waits for its end.  What no answer and no request
on the way changes is there at the end (`RunStep.Lasting`).  Whatever happens, nothing changes but the
list of what was done and the capture (`Closing`).  This is said here for each way to end, also if it
fails.
-/

namespace BranchWatch

namespace Act

variable {δ : Type}

/-- Done while the end of a process is waited for. -/
def isClosing : Act δ → Bool
  | waited _ | killed _ | disabled _ | resumed .ending _ _ => true
  | _ => false

/-- The process was found at a system call. -/
def isCallStop : Act δ → Bool
  | waited (.ok (.stopped _ .syscall)) => true
  | _ => false

end Act

namespace Session

variable {κ δ : Type}

/-- The process was let run, and nothing has been told since. -/
def isRunning (s : Session κ δ) : Bool :=
  match s.acts with
  | .resumed stretch _ none :: _ => stretch ≠ .ending
  | _ => false

/-- Between the two sessions a run was brought to its end.  If the process was running, it was not
found at a system call any more. -/
structure Closing (s s' : Session κ δ) : Prop where
  config : s'.config = s.config
  pid : s'.pid = s.pid
  buffer : s'.buffer = s.buffer
  report : s'.report = s.report
  acts : ∃ later, s'.acts = later ++ s.acts ∧ (∀ a ∈ later, a.isClosing = true) ∧
    (s.isRunning = true → ∀ a ∈ later, a.isCallStop = false)

namespace Closing

variable {s s' s'' : Session κ δ}

theorem refl (s : Session κ δ) : Closing s s :=
  ⟨rfl, rfl, rfl, rfl, [], rfl, by simp, by simp⟩

/-- One more thing is done on the way to the end. -/
theorem later {a : Act δ} (h : Closing s s') (hclosing : a.isClosing = true)
    (hs : s.isRunning = false) : Closing s (s'.did a) := by
  obtain ⟨later, hacts, hlater, -⟩ := h.acts
  refine ⟨h.config, h.pid, h.buffer, h.report, a :: later, by simp [hacts], ?_, by simp [hs]⟩
  intro x hx
  rcases List.mem_cons.1 hx with rfl | hx
  · exact hclosing
  · exact hlater x hx

/-- At last the capture may be stopped. -/
theorem disabled [TraceCapture κ] (h : Closing s s') : Closing s s'.disabled := by
  obtain ⟨later, hacts, hlater, hstop⟩ := h.acts
  refine ⟨h.config, h.pid, h.buffer, h.report, .disabled (TraceCapture.disable s'.capture).1 :: later,
    by simp [Session.disabled, hacts], ?_, ?_⟩
  · intro x hx
    rcases List.mem_cons.1 hx with rfl | hx
    · rfl
    · exact hlater x hx
  · intro hs x hx
    rcases List.mem_cons.1 hx with rfl | hx
    · rfl
    · exact hstop hs x hx

end Closing

end Session

namespace RunStep

variable {κ δ α : Type} {s s' : Session κ δ}

/-- The session behind a step, also if the step fails. -/
def behind : EStateM.Result MonitorError (Session κ δ) α → Session κ δ
  | .ok _ s => s
  | .error _ s => s

/-- How a step fails, if it does. -/
def failure? : EStateM.Result MonitorError (Session κ δ) α → Option MonitorError
  | .ok .. => none
  | .error e _ => some e

/-- If nobody can be waited for, nothing more is done. -/
theorem behind_lost (e : Errno) (s : Session κ δ) : behind (lost e s) = s := by
  unfold lost
  split <;> rfl

theorem lost_closing (e : Errno) (s : Session κ δ) : s.Closing (behind (lost e s)) := by
  rw [behind_lost]
  exact .refl s

/-- No answer about a process that ends changes this, and no request to let it run on. -/
structure Lasting (R : Session κ δ → Prop) : Prop where
  waited : ∀ (s : Session κ δ) (state : Except TraceeError ProcessState),
    R s → R (s.did (.waited state))
  resumed : ∀ (s : Session κ δ) (signal : Option Signal) (failure : Option Errno),
    R s → R (s.did (.resumed .ending signal failure))

theorem Lasting.reap {R : Session κ δ → Prop} (hR : Lasting R) (waits : List WaitAnswer)
    (s : Session κ δ) (h : R s) : R (behind (reap waits s)) := by
  have hlost (e : Errno) (s : Session κ δ) (h : R s) : R (behind (lost e s)) :=
    (behind_lost e s).symm ▸ h
  induction waits generalizing s with
  | nil => exact h
  | cons a waits ih =>
      cases hstatus : a.status with
      | error e =>
          simp only [RunStep.reap, hstatus]
          split
          next => exact ih s h
          next => exact hlost e s h
      | ok status =>
          have h := hR.waited s (a.state status) h
          simp only [RunStep.reap, hstatus]
          rw [bind_apply, interpret_eq]
          -- Each answer adds one act, or two if the process has to be let run again.
          generalize a.state status = state at h ⊢
          rcases state with ⟨e | pid⟩ | ⟨pid, event⟩ | ⟨pid, status⟩ <;> simp only
          · exact hlost e _ h
          · exact ih _ h
          · rw [bind_apply, resume_eq]
            cases a.resume with
            | none => exact ih _ (hR.resumed _ _ _ h)
            | some e =>
                simp only
                split
                next => exact ih _ (hR.resumed _ _ _ h)
                next => exact hlost e _ (hR.resumed _ _ _ h)
          · exact h

theorem Lasting.unresumed {R : Session κ δ → Prop} (hR : Lasting R) (e : Errno)
    (waits : List WaitAnswer) (s : Session κ δ) (h : R s) : R (behind (unresumed e waits s)) := by
  unfold RunStep.unresumed
  split
  next => exact hR.reap waits s h
  next => exact h

theorem Lasting.terminate {R : Session κ δ → Prop} (hR : Lasting R) (stop : StopAnswers)
    (waits : List WaitAnswer) (s : Session κ δ) (h : R (s.did (.killed stop.kill))) :
    R (behind (terminate stop waits s)) := by
  unfold RunStep.terminate
  rw [bind_apply, record_eq]
  cases hkill : stop.kill with
  | none => exact hR.reap _ _ (hkill ▸ h)
  | some e =>
      simp only
      split
      next => exact hR.reap _ _ (hkill ▸ h)
      next => exact hkill ▸ h

/-- On the way to the end of a process that is held only such acts are added as belong to it. -/
theorem lasting_closing (hs : s.isRunning = false) : Lasting s.Closing :=
  ⟨fun _ _ h => h.later rfl hs, fun _ _ _ h => h.later rfl hs⟩

theorem reap_closing (waits : List WaitAnswer) (s : Session κ δ) (hs : s.isRunning = false) :
    s.Closing (behind (reap waits s)) :=
  (lasting_closing hs).reap waits s (.refl s)

theorem unresumed_closing (e : Errno) (waits : List WaitAnswer) (s : Session κ δ)
    (hs : s.isRunning = false) : s.Closing (behind (unresumed e waits s)) :=
  (lasting_closing hs).unresumed e waits s (.refl s)

theorem terminate_closing (stop : StopAnswers) (waits : List WaitAnswer) (s : Session κ δ)
    (hs : s.isRunning = false) : s.Closing (behind (terminate stop waits s)) :=
  (lasting_closing hs).terminate stop waits s ((Session.Closing.refl s).later rfl hs)

section

variable [TraceCapture κ]

/-- A stretch that is not captured is left as it is. -/
theorem leaving_of_ne {stretch : Stretch} (h : stretch ≠ .user) (last : RunStep κ δ α)
    (s : Session κ δ) : leaving stretch last s = last s := by
  unfold leaving
  cases last s <;> simp only [leave_of_ne h]

/-- A captured stretch is left by stopping the capture. -/
theorem behind_leaving_user (last : RunStep κ δ α) (s : Session κ δ) :
    behind (leaving .user last s) = (behind (last s)).disabled := by
  unfold leaving
  cases last s with
  | ok a m =>
      simp only [leave_user, disable_eq, behind]
      cases (TraceCapture.disable m.capture).1 <;> rfl
  | error e m =>
      simp only [leave_user, disable_eq, behind]
      cases (TraceCapture.disable m.capture).1 <;> rfl

/-- If the capture cannot be stopped, this is the error. -/
theorem failure?_leaving_user (last : RunStep κ δ α) (s : Session κ δ) :
    failure? (leaving .user last s) =
      match (TraceCapture.disable (behind (last s)).capture).1 with
      | .ok () => failure? (last s)
      | .error e => some (.collector e) := by
  unfold leaving
  cases last s with
  | ok a m =>
      simp only [leave_user, disable_eq, behind]
      cases (TraceCapture.disable m.capture).1 <;> rfl
  | error e m =>
      simp only [leave_user, disable_eq, behind]
      cases (TraceCapture.disable m.capture).1 <;> rfl

/-- Leaving a stretch changes no more than stopping the capture does. -/
theorem leaving_closing (stretch : Stretch) (last : RunStep κ δ α)
    (h : s.Closing (behind (last s))) : s.Closing (behind (leaving stretch last s)) := by
  by_cases hstretch : stretch = .user
  · subst hstretch
    rw [behind_leaving_user]
    exact h.disabled
  · rw [leaving_of_ne hstretch]
    exact h

end

end RunStep

end BranchWatch
