import BranchWatch.Proofs.Monitor.Endings
import BranchWatch.Proofs.Monitor.Entry

/-!
# What a session tells of its windows

The list of what was done says which windows the decoder was given (`openings`) and at how many
entries to system calls the process stood (`callStops .user`).  At every moment at which the process
runs, the report counts these windows and nothing else (`Tally`), and none of them was suspicious
(`Harmless`).  A turn keeps this (`Tally.turn`), and an end turns it into what is wanted of a run
that is over (`Tally.ends`), so it holds of all runs (`Tally.runs`).

A stop at a system call is an entry if the process was let run in the stretch `user` just before it.
On the way to the end of a process such stops can still come, and they do not count: after a death or
a kill the process is let run in the stretch `ending` only.
-/

namespace BranchWatch

namespace Act

variable {δ : Type}

/-- What the decoder said to a window. -/
def opening? : Act δ → Option (Opening δ)
  | decoded _ opening => some opening
  | _ => none

/-- The process was let run in a stretch. -/
def letsRun (stretch : Stretch) : Act δ → Bool
  | resumed stretch' _ none => stretch' = stretch
  | _ => false

theorem opening?_of_isClosing {a : Act δ} (h : a.isClosing = true) : a.opening? = none := by
  cases a <;> first | rfl | cases h

theorem letsRun_of_isClosing {a : Act δ} {stretch : Stretch} (h : a.isClosing = true)
    (hstretch : stretch ≠ .ending) : a.letsRun stretch = false := by
  cases a with
  | resumed stretch' signal failure =>
      cases stretch' <;> cases failure <;> simp_all [isClosing, letsRun, Ne.symm]
  | _ => rfl

/-- It was let run in one stretch only. -/
theorem letsRun_eq_decide {a : Act δ} {stretch : Stretch} (h : a.letsRun stretch = true)
    (stretch' : Stretch) : a.letsRun stretch' = decide (stretch' = stretch) := by
  cases a with
  | resumed ran signal failure =>
      cases failure with
      | none =>
          have hran : ran = stretch := of_decide_eq_true h
          simp [letsRun, hran, eq_comm]
      | some e => cases h
  | _ => cases h

end Act

/-- The windows that were given to the decoder, the latest first. -/
def openings {δ : Type} (acts : List (Act δ)) : List (Opening δ) := acts.filterMap Act.opening?

/-- The last thing done was to let the process run in the stretch.  The list has the latest first. -/
def runsIn {δ : Type} (stretch : Stretch) (acts : List (Act δ)) : Bool :=
  acts.head?.any (·.letsRun stretch)

@[simp] theorem runsIn_cons {δ : Type} (stretch : Stretch) (a : Act δ) (acts : List (Act δ)) :
    runsIn stretch (a :: acts) = a.letsRun stretch := rfl

/-- How often the process, let run in a stretch, came to a system call next. -/
def callStops {δ : Type} (stretch : Stretch) : List (Act δ) → Nat
  | [] => 0
  | a :: acts =>
    callStops stretch acts + if a.isCallStop && runsIn stretch acts then 1 else 0

section

variable {δ : Type} {stretch : Stretch} {later acts : List (Act δ)}

theorem callStops_append (h : ∀ a ∈ later, a.isCallStop = false) :
    callStops stretch (later ++ acts) = callStops stretch acts := by
  induction later with
  | nil => rfl
  | cons a later ih =>
      have ha : a.isCallStop = false := h a List.mem_cons_self
      rw [List.cons_append, callStops, ih fun b hb => h b (List.mem_cons_of_mem a hb)]
      simp [ha]

/-- Stops behind the end do not count. -/
theorem callStops_append_closing (hstretch : stretch ≠ .ending)
    (hrun : runsIn stretch acts = false) (h : ∀ a ∈ later, a.isClosing = true) :
    callStops stretch (later ++ acts) = callStops stretch acts := by
  induction later with
  | nil => rfl
  | cons a later ih =>
      have hlater : ∀ b ∈ later, b.isClosing = true := fun b hb => h b (List.mem_cons_of_mem a hb)
      have hhead : runsIn stretch (later ++ acts) = false := by
        cases later with
        | nil => exact hrun
        | cons b later =>
            exact Act.letsRun_of_isClosing (hlater b List.mem_cons_self) hstretch
      rw [List.cons_append, callStops, ih hlater, hhead, Bool.and_false]
      rfl

/-- A stop is counted for the stretch in which the process ran. -/
theorem callStops_stop {pid : Int} (hrun : runsIn stretch acts = true)
    (stretch' : Stretch) :
    callStops stretch' (.waited (.ok (.stopped pid .syscall)) :: acts) =
      callStops stretch' acts + if stretch' = stretch then 1 else 0 := by
  have hhead : runsIn stretch' acts = decide (stretch' = stretch) := by
    cases acts with
    | nil => cases hrun
    | cons a acts => exact Act.letsRun_eq_decide hrun stretch'
  simp [callStops, hhead, Act.isCallStop]

theorem openings_append (h : ∀ a ∈ later, a.opening? = none) :
    openings (later ++ acts) = openings acts := by
  rw [openings, List.filterMap_append, List.filterMap_eq_nil_iff.2 h, List.nil_append]
  rfl

theorem openings_append_noted (ns : List Notice) :
    openings (ns.map .noted ++ acts) = openings acts :=
  openings_append (by simp [Act.opening?])

theorem callStops_append_noted (ns : List Notice) :
    callStops stretch (ns.map .noted ++ acts) = callStops stretch acts :=
  callStops_append (by simp [Act.isCallStop])

end

namespace RunStep.Closed

variable {κ δ : Type} [TraceCapture κ] [TraceDecoder δ] {s s' : Session κ δ} {counted : Nat}
  {reason : Option Reason}

theorem openings (h : Closed s counted reason s') :
    openings s'.acts = s.opening :: openings s.acts := by
  obtain ⟨first, second, third, hacts⟩ := h.acts
  rw [hacts, openings_append_noted]
  show s.opening :: BranchWatch.openings (second.map .noted ++ _) = _
  rw [openings_append_noted]
  show s.opening :: BranchWatch.openings (first.map .noted ++ _) = _
  rw [openings_append_noted]

theorem callStops (h : Closed s counted reason s') (stretch : Stretch) :
    callStops stretch s'.acts = callStops stretch s.acts := by
  obtain ⟨first, second, third, hacts⟩ := h.acts
  rw [hacts, callStops_append_noted]
  show BranchWatch.callStops stretch (second.map .noted ++ _) = _
  rw [callStops_append_noted]
  show BranchWatch.callStops stretch (first.map .noted ++ _) = _
  rw [callStops_append_noted]

/-- The process is still held. -/
theorem isRunning_eq_false (h : Closed s counted reason s') : s'.isRunning = false := by
  obtain ⟨first, second, third, hacts⟩ := h.acts
  unfold Session.isRunning
  rw [hacts]
  cases third <;> rfl

end RunStep.Closed

theorem Session.runsIn_of_isRunning_eq_false {κ δ : Type} {s : Session κ δ} {stretch : Stretch}
    (h : s.isRunning = false) (hstretch : stretch ≠ .ending) : runsIn stretch s.acts = false := by
  unfold isRunning at h
  cases hs : s.acts with
  | nil => rfl
  | cons a acts =>
      rw [hs] at h
      cases a with
      | resumed ran signal failure =>
          cases failure with
          | none =>
              have hran : ran = .ending := by simpa using h
              simp [Act.letsRun, hran, hstretch.symm]
          | some e => rfl
      | _ => rfl

namespace Session.Closing

variable {κ δ : Type} {s s' : Session κ δ}

theorem openings (h : Closing s s') : openings s'.acts = openings s.acts := by
  obtain ⟨later, hacts, hlater, -⟩ := h.acts
  rw [hacts, openings_append fun a ha => Act.opening?_of_isClosing (hlater a ha)]

/-- On the way to the end no stop at a system call counts: a process that was running was not found
at one, and another one was not let run before. -/
theorem callStops (h : Closing s s') {stretch : Stretch} (hstretch : stretch ≠ .ending) :
    callStops stretch s'.acts = callStops stretch s.acts := by
  obtain ⟨later, hacts, hlater, hstop⟩ := h.acts
  rw [hacts]
  cases hrunning : s.isRunning with
  | true => exact callStops_append (hstop hrunning)
  | false =>
      exact callStops_append_closing hstretch (runsIn_of_isRunning_eq_false hrunning hstretch) hlater

end Session.Closing

/-- The report of a run that met windows, the latest first, and has not ended. -/
def Report.ofOpenings {δ : Type} (capacity : Nat) (os : List (Opening δ)) : Report :=
  os.foldr (fun o r => r.closing capacity o) {}

@[simp] theorem Report.ofOpenings_outcome {δ : Type} (capacity : Nat) (os : List (Opening δ)) :
    (Report.ofOpenings capacity os).outcome = .noAttackFound := by
  induction os with
  | nil => rfl
  | cons o os ih => exact ih

/-- The outcome of a run that met windows, the latest first. -/
def Outcome.ofOpenings {δ : Type} (config : MonitorConfig) (pid : Int) (os : List (Opening δ)) :
    Outcome :=
  match os.head?.bind (·.reason? config) with
  | none => .noAttackFound
  | some reason => .attackDetected pid reason

namespace Session

variable {κ δ : Type}

/-- A session tells what its windows come to.  The process runs in the stretch, or was found where
the stretch begins. -/
structure Tally (settings : MonitorConfig) (process : Int) (stretch : Stretch)
    (s : Session κ δ) : Prop where
  config : s.config = settings
  pid : s.pid = process
  capacity : s.buffer.capacity = settings.windowCapacity
  report : s.report = .ofOpenings settings.windowCapacity (openings s.acts)
  entries : callStops .user s.acts = (openings s.acts).length
  exits : callStops .user s.acts = callStops .kernel s.acts + if stretch = .kernel then 1 else 0
  stretch : stretch = .user ∨ stretch = .kernel

/-- None of the windows was suspicious. -/
def Harmless (config : MonitorConfig) (s : Session κ δ) : Prop :=
  ∀ o ∈ openings s.acts, o.reason? config = none

namespace Tally

variable {settings : MonitorConfig} {process : Int} {stretch : Stretch} {s s' : Session κ δ}

/-- What does not touch the windows and the stops at system calls does not count. -/
theorem frame (h : Tally settings process stretch s) (hconfig : s'.config = s.config)
    (hpid : s'.pid = s.pid) (hbuffer : s'.buffer = s.buffer) (hreport : s'.report = s.report)
    (hopenings : openings s'.acts = openings s.acts)
    (hstops : ∀ stretch ≠ .ending, callStops stretch s'.acts = callStops stretch s.acts) :
    Tally settings process stretch s' where
  config := hconfig.trans h.config
  pid := hpid.trans h.pid
  capacity := by rw [hbuffer, h.capacity]
  report := by rw [hreport, hopenings, h.report]
  entries := by rw [hopenings, hstops .user nofun, h.entries]
  exits := by rw [hstops .user nofun, hstops .kernel nofun, h.exits]
  stretch := h.stretch

theorem did {a : Act δ} (h : Tally settings process stretch s) (hopening : a.opening? = none)
    (hstop : a.isCallStop = false) : Tally settings process stretch (s.did a) := by
  refine h.frame rfl rfl rfl rfl ?_ ?_
  · simp [openings, hopening]
  · simp [callStops, hstop]

theorem closing (h : Tally settings process stretch s) (hclosing : s.Closing s') :
    Tally settings process stretch s' :=
  h.frame hclosing.config hclosing.pid hclosing.buffer hclosing.report hclosing.openings
    fun _ => hclosing.callStops

variable [TraceCapture κ] [TraceDecoder δ]

/-- The entry to a system call is counted, and so is the window that it closes. -/
theorem entry {stop : StopAnswers} {pid : Int} {reason : Option Reason}
    (h : Tally settings process .user s) (hrun : runsIn .user s.acts = true)
    (hentry : RunStep.atEntry stop (s.did (.waited (.ok (.stopped pid .syscall)))).disabled =
      .ok reason s') :
    Tally settings process .kernel s' ∧ s'.isRunning = false ∧
      ∃ o, openings s'.acts = o :: openings s.acts ∧ o.reason? settings = reason := by
  -- Up to the moment `m` at which the window is looked at, only the stop has been counted.
  generalize hm : (s.did (.waited (.ok (.stopped pid .syscall)))).disabled = m at hentry
  have hconfig : m.config = settings := hm ▸ h.config
  have hcapacity : m.buffer.capacity = settings.windowCapacity := hm ▸ h.capacity
  have hclosed := RunStep.atEntry_ok (hcapacity.trans (by rw [hconfig])) hentry
  have hopenings : openings s'.acts = m.opening :: openings s.acts := by
    rw [hclosed.openings, ← hm]
    rfl
  have hstops (stretch : Stretch) : callStops stretch s'.acts =
      callStops stretch s.acts + if stretch = .user then 1 else 0 := by
    rw [hclosed.callStops, ← hm]
    exact callStops_stop hrun stretch
  refine ⟨⟨hclosed.config.trans hconfig, ?_, ?_, ?_, ?_, ?_, .inr rfl⟩,
    hclosed.isRunning_eq_false, m.opening, hopenings, ?_⟩
  · rw [hclosed.pid, ← hm]
    exact h.pid
  · rw [hclosed.capacity, hcapacity]
  · have hreport : m.report = .ofOpenings settings.windowCapacity (openings s.acts) := hm ▸ h.report
    rw [hclosed.report, hconfig, hreport, hopenings]
    rfl
  · rw [hopenings, hstops, h.entries]
    rfl
  · have hexits := h.exits
    rw [hstops, hstops, hexits]
    rfl
  · rw [hclosed.reason, hconfig]

omit [TraceDecoder δ] in
/-- With the exit of a system call another stretch of the process itself begins. -/
theorem exit {pid : Int} (h : Tally settings process .kernel s)
    (hrun : runsIn .kernel s.acts = true) :
    Tally settings process .user (s.did (.waited (.ok (.stopped pid .syscall)))).enabled := by
  have hstops (stretch : Stretch) :
      callStops stretch (s.did (.waited (.ok (.stopped pid .syscall)))).enabled.acts =
        callStops stretch s.acts + if stretch = .kernel then 1 else 0 :=
    callStops_stop hrun stretch
  refine ⟨h.config, h.pid, h.capacity, h.report, ?_, ?_, .inl rfl⟩
  · rw [hstops]
    exact h.entries
  · rw [hstops, hstops]
    exact h.exits

omit [TraceCapture κ] [TraceDecoder δ] in
theorem exits_le (h : Tally settings process stretch s) :
    callStops .kernel s.acts ≤ callStops .user s.acts ∧
      callStops .user s.acts ≤ callStops .kernel s.acts + 1 := by
  have hexits := h.exits
  split at hexits <;> omega

/-- What happens at a stop behind which the process is to run on. -/
theorem turn {a : WaitAnswer} {stretch' : Stretch} {signal : Option Signal}
    (h : Tally settings process stretch s) (hharmless : s.Harmless settings)
    (hrun : runsIn stretch s.acts = true)
    (hturn : RunStep.Turn a stretch s stretch' signal s') :
    Tally settings process stretch' s' ∧ s'.Harmless settings := by
  cases hturn with
  | entry ha hdisable hentry =>
      obtain ⟨h', -, o, hopenings, ho⟩ := h.entry hrun hentry
      refine ⟨h', ?_⟩
      unfold Harmless
      rw [hopenings]
      exact List.forall_mem_cons.2 ⟨ho, hharmless⟩
  | exit hstretch ha henable =>
      obtain rfl : stretch = .kernel := h.stretch.resolve_left hstretch
      exact ⟨h.exit hrun, hharmless⟩
  | signal ha => exact ⟨(h.did rfl rfl).did rfl rfl, hharmless⟩
  | exec ha => exact ⟨((h.did rfl rfl).did rfl rfl).frame rfl rfl rfl rfl rfl fun _ _ => rfl, hharmless⟩
  | @other _ _ _ event ha hsyscall =>
      refine ⟨h.did rfl ?_, hharmless⟩
      cases event <;> first | rfl | exact absurd rfl hsyscall

end Tally

/-- The session of a run that is over: the report tells what the windows come to, and only the last
one may be suspicious. -/
structure Concluded (settings : MonitorConfig) (process : Int) (s : Session κ δ) : Prop where
  report : s.report =
    { Report.ofOpenings settings.windowCapacity (openings s.acts) with
      outcome := .ofOpenings settings process (openings s.acts) }
  entries : callStops .user s.acts = (openings s.acts).length
  exits : callStops .kernel s.acts ≤ callStops .user s.acts ∧
    callStops .user s.acts ≤ callStops .kernel s.acts + 1
  harmless : ∀ o ∈ (openings s.acts).tail, o.reason? settings = none

section

variable {settings : MonitorConfig} {process : Int} {stretch : Stretch} {s s' : Session κ δ}

/-- No window was suspicious to the end. -/
theorem Tally.concluded (h : Tally settings process stretch s) (hharmless : s.Harmless settings) :
    s.Concluded settings process := by
  have houtcome : Outcome.ofOpenings settings process (openings s.acts) = .noAttackFound := by
    unfold Outcome.ofOpenings
    cases hopenings : openings s.acts with
    | nil => rfl
    | cons o os => simp [hharmless o (by simp [hopenings])]
  refine ⟨?_, h.entries, h.exits_le, fun o ho => hharmless o (List.mem_of_mem_tail ho)⟩
  rw [h.report, houtcome, ← Report.ofOpenings_outcome settings.windowCapacity (openings s.acts)]

variable {waits : List WaitAnswer} {status : Option ExitStatus}
  {result : EStateM.Result MonitorError (Session κ δ) (Option ExitStatus)}

theorem Tally.concluded_of_closing (h : Tally settings process stretch s)
    (hharmless : s.Harmless settings) (hclosing : s.Closing (RunStep.behind result))
    (hresult : result = .ok status s') : s'.Concluded settings process := by
  subst hresult
  refine (h.closing hclosing).concluded ?_
  unfold Harmless
  rw [hclosing.openings]
  exact hharmless

/-- One more thing is done before. -/
theorem Tally.concluded_of_did {a : Act δ} (h : Tally settings process stretch s)
    (hharmless : s.Harmless settings) (hclosing : (s.did a).Closing (RunStep.behind result))
    (hopening : a.opening? = none) (hstop : a.isCallStop = false)
    (hresult : result = .ok status s') : s'.Concluded settings process := by
  refine (h.did hopening hstop).concluded_of_closing ?_ hclosing hresult
  simpa [Harmless, openings, hopening] using hharmless

/-- The last window is suspicious, and the process is killed. -/
theorem Tally.concluded_of_condemn {stop : StopAnswers} {reason : Reason} {o : Opening δ}
    {os : List (Opening δ)} (h : Tally settings process stretch s) (hs : s.isRunning = false)
    (hopenings : openings s.acts = o :: os) (ho : o.reason? settings = some reason)
    (hos : ∀ o ∈ os, o.reason? settings = none)
    (hresult : RunStep.condemn stop waits reason s = .ok status s') :
    s'.Concluded settings process := by
  have hclosing := RunStep.terminate_closing stop waits s hs
  unfold RunStep.condemn at hresult
  rw [RunStep.bind_apply] at hresult
  cases hterminate : RunStep.terminate stop waits s with
  | error e m =>
      rw [hterminate] at hresult
      cases hresult
  | ok status m =>
      rw [hterminate] at hresult hclosing
      cases hresult
      have hm : Tally settings process stretch m := h.closing hclosing
      have hopenings' : openings m.acts = o :: os := hclosing.openings.trans hopenings
      refine ⟨?_, hm.entries, hm.exits_le, ?_⟩
      · show { m.report with outcome := .attackDetected m.pid reason } = _
        rw [hm.report, hm.pid]
        simp [Outcome.ofOpenings, hopenings', ho]
      · show ∀ o ∈ (openings m.acts).tail, _
        rw [hopenings']
        exact hos

variable [TraceCapture κ] [TraceDecoder δ]

theorem Tally.ends (h : Tally settings process stretch s) (hharmless : s.Harmless settings)
    (hrun : runsIn stretch s.acts = true)
    (hends : RunStep.Ends stretch waits s result) (hresult : result = .ok status s') :
    s'.Concluded settings process := by
  cases hends with
  | nobody =>
      refine h.concluded_of_closing hharmless (RunStep.leaving_closing _ _ ?_) hresult
      exact .refl s
  | unwaited ha he =>
      refine h.concluded_of_closing hharmless (RunStep.leaving_closing _ _ ?_) hresult
      exact RunStep.lost_closing _ s
  | died ha =>
      refine h.concluded_of_did hharmless (RunStep.leaving_closing _ _ ?_) ?_ ?_ hresult
      · exact RunStep.reap_closing _ _ rfl
      · rfl
      · rfl
  | untold ha =>
      refine h.concluded_of_did hharmless (RunStep.leaving_closing _ _ ?_) ?_ ?_ hresult
      · exact RunStep.lost_closing _ _
      · rfl
      · rfl
  | exited ha =>
      refine h.concluded_of_did hharmless (RunStep.leaving_closing _ _ ?_) ?_ ?_ hresult
      · exact .refl _
      · rfl
      · rfl
  | undisabled ha hdisable => cases hresult
  | failed ha hdisable hentry => cases hresult
  | condemned ha hdisable hentry =>
      -- The window that was just closed is the last one, and it is suspicious.
      obtain ⟨h', hheld, o, hopenings, ho⟩ := h.entry hrun hentry
      exact h'.concluded_of_condemn hheld hopenings ho hharmless hresult
  | unenabled hstretch ha henable => cases hresult
  | unresumed hturn hresume =>
      obtain ⟨h', hharmless'⟩ := h.turn hharmless hrun hturn
      refine h'.concluded_of_did hharmless' (RunStep.leaving_closing _ _ ?_) ?_ ?_ hresult
      · exact RunStep.unresumed_closing _ _ _ rfl
      · rfl
      · rfl

/-- What a run comes to, from a moment in which the process is let run. -/
theorem Tally.runs (h : Tally settings process stretch s) (hharmless : s.Harmless settings)
    (hrun : runsIn stretch s.acts = true)
    (hruns : RunStep.Runs stretch waits s result) (hresult : result = .ok status s') :
    s'.Concluded settings process := by
  -- `Tally` and `Harmless` are carried along the turns; only the end may find a suspicious window.
  induction hruns with
  | ended hends => exact h.ends hharmless hrun hends hresult
  | again ha hruns ih => exact ih h hharmless hrun hresult
  | onward hturn hresume hruns ih =>
      obtain ⟨h', hharmless'⟩ := h.turn hharmless hrun hturn
      exact ih (h'.did rfl rfl) hharmless' (by simp [Act.letsRun]) hresult

end

end Session

end BranchWatch
