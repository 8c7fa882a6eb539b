import BranchWatch.Monitor.Scripted
import BranchWatch.Proofs.Monitor.Slices
import BranchWatch.Tracee.Script

/-!
# The capture brackets the stretches of the process itself

In a run that stops at system calls the capture is on exactly while the process runs from the exit
of one call to the entry of the next one, and it is stopped again however the run ends.  At each
entry the window is read once, behind the stop of the capture and before its next start
(`Session.brackets_user_stretches`).

Two things break a run off between the stop of the capture and the reading: the capture cannot be
stopped, or the system call is to be logged and its registers cannot be read although the process
has not died.  Then the window is not read (`Session.entry_without_reading`), and the run ends with
that error.
-/

namespace BranchWatch

/-- How often a window was read. -/
def readings {δ : Type} (acts : List (Act δ)) : Nat :=
  acts.countP fun
    | .readWindow _ => true
    | _ => false

namespace Phase

variable {δ : Type} {p : Phase} {later earlier : List (Act δ)}

/-- At which places of a run the process is let run. -/
theorem resumed_cases {stretch : Stretch} {signal : Option Signal} {failure : Option Errno}
    (h : InPhase (later ++ .resumed stretch signal failure :: earlier) p) (hp : p.isOn = false) :
    stretch = .ending ∨
      (stretch = .user ∧ callCount earlier % 2 = 0 ∧ isCapturing earlier = true ∧
        ∃ a ∈ later, a.isEnd = true) ∨
      (stretch = .kernel ∧ callCount earlier % 2 = 1 ∧ isCapturing earlier = false) := by
  obtain ⟨m, n, hearlier, hstep, hlater⟩ := h.around
  have hon := isCapturing_eq hearlier
  cases hstep with
  | run | runFails =>
      have hcount := callCount_mod_two hearlier true rfl
      exact .inr (.inl ⟨rfl, hcount, hon, hlater.exists_end rfl hp⟩)
  | call | callFails =>
      have hcount := callCount_mod_two hearlier false rfl
      exact .inr (.inr ⟨rfl, hcount, hon⟩)
  | reap _ ha =>
      cases stretch with
      | ending => exact .inl rfl
      | _ => cases ha

/-- What happens at the entry of a system call. -/
theorem entry_slice {pid : Int}
    (h : InPhase (later ++ .waited (.ok (.stopped pid .syscall)) :: earlier) p)
    (hrun : runsIn .user earlier = true) : SliceState later p := by
  obtain ⟨m, n, hearlier, hstep, hlater⟩ := h.around
  obtain rfl := (runsIn_user_iff hearlier).1 hrun
  cases hstep with
  | enter => exact hlater.slice
  | stop _ hevent => exact absurd rfl hevent
  | vanish hstate => exact absurd rfl (hstate pid .syscall)
  | reap hp => cases hp

end Phase

namespace Session

variable {κ δ : Type} [TraceCapture κ] [TraceDecoder δ] {config : MonitorConfig} {capture : κ}
  {decoder : δ} {tracee : Tracee} {answer : Except MonitorError Report} {s : Session κ δ}

/-- **The capture brackets the stretches of the process itself.**  Starts and stops take turns.  The
process is let run to the entry of a system call only while the capture is on, which is then stopped,
and to the exit of a call only while it is off.  The window is read once at each entry, and nowhere
else, unless the run fails there before.  No start is without a later stop. -/
theorem brackets_user_stretches (hmode : config.diagnostics.traceTimeOnly = false)
    (h : Session.run config capture decoder tracee = (answer, s)) :
    ((switches s.acts).IsChain (· ≠ ·) ∧ (switches s.acts).getLast? ≠ some false) ∧
      (∀ later earlier stretch signal failure,
        s.acts = later ++ .resumed stretch signal failure :: earlier →
          stretch = .ending ∨
            (stretch = .user ∧ callCount earlier % 2 = 0 ∧ isCapturing earlier = true ∧
              ∃ a ∈ later, a.isEnd = true) ∨
            (stretch = .kernel ∧ callCount earlier % 2 = 1 ∧ isCapturing earlier = false)) ∧
      (∀ later earlier pid, s.acts = later ++ .waited (.ok (.stopped pid .syscall)) :: earlier →
        runsIn .user earlier = true →
          (∃ w, sliceCalls later = [.disabled (.ok ()), .readWindow w]) ∨
            (∃ e, sliceCalls later = [.disabled (.error e)] ∧ answer = .error (.collector e)) ∨
            (sliceCalls later = [.disabled (.ok ())] ∧ config.diagnostics.traceSyscalls = true ∧
              ∃ e, e ≠ .noProcess ∧ answer = .error (.tracee (.errno e)))) ∧
      (∀ later earlier w, s.acts = later ++ .readWindow w :: earlier →
        ∃ between before pid, earlier = between ++ .waited (.ok (.stopped pid .syscall)) :: before ∧
          runsIn .user before = true ∧ ∀ a ∈ between, a.isStart = false) ∧
      (∀ later earlier, s.acts = later ++ .enabled (.ok ()) :: earlier →
        ∃ a ∈ later, a.isEnd = true) := by
  obtain ⟨p, failure, hacts, hends, hfailure⟩ := exists_inPhase hmode h
  refine ⟨?_, ?_, ?_, ?_, ?_⟩
  · obtain ⟨hchain, hfirst, -⟩ := Phase.takeTurns hacts
    exact ⟨hchain, hfirst⟩
  · intro later earlier stretch signal failure heq
    exact Phase.resumed_cases (heq ▸ hacts) hends.isOn_eq
  · intro later earlier pid heq hrun
    -- A slice that was broken off is still in the phase in which the run ends.
    cases Phase.entry_slice (heq ▸ hacts) hrun with
    | entered => exact absurd hends.isOn_eq (by decide)
    | captured _ hcalls =>
        cases hends with
        | captured hlog he => exact .inr (.inr ⟨hcalls, hlog, _, he, hfailure _ rfl⟩)
    | failed _ hcalls =>
        cases hends with
        | failed => exact .inr (.inl ⟨_, hcalls, hfailure _ rfl⟩)
    | done hcalls => exact .inl ⟨_, hcalls⟩
  · intro later earlier w heq
    obtain ⟨m, n, hearlier, hstep, -⟩ := Phase.Steps.around (heq ▸ hacts)
    cases hstep with
    | reap _ ha => cases ha
    | look =>
        obtain ⟨between, before, pid, hbefore, hrunning, hbetween⟩ :=
          Phase.exists_entry hearlier (.inr rfl)
        exact ⟨between, before, pid, hbefore, (Phase.runsIn_user_iff hrunning).2 rfl, hbetween⟩
  · intro later earlier heq
    obtain ⟨m, n, -, hstep, hlater⟩ := Phase.Steps.around (heq ▸ hacts)
    cases hstep with
    | reap _ ha => cases ha
    | start => exact hlater.exists_end rfl hends.isOn_eq

/-- A process that makes one call and exits goes through two slices. -/
theorem brackets_user_stretches_getpid :
    let run := Session.run {} (ScriptedCapture.constant [0]) ScriptedDecoder.consistent
      (.ofScript 7 true none [.syscall .getpid])
    ({} : MonitorConfig).diagnostics.traceTimeOnly = false ∧ run = (run.1, run.2) ∧
      switches run.2.acts = [false, true, false, true] ∧ callStops .user run.2.acts = 2 ∧
      readings run.2.acts = 2 ∧ (switches run.2.acts).IsChain (· ≠ ·) ∧
      ∀ later earlier, run.2.acts = later ++ .enabled (.ok ()) :: earlier →
        ∃ a ∈ later, a.isEnd = true := by
  intro run
  have hmode : ({} : MonitorConfig).diagnostics.traceTimeOnly = false := rfl
  have hrun : run = (run.1, run.2) := (Prod.eta run).symm
  obtain ⟨⟨hchain, -⟩, -, -, -, hends⟩ := brackets_user_stretches hmode hrun
  exact ⟨hmode, hrun, by decide +kernel, by decide +kernel, by decide +kernel, hchain, hends⟩

/-- At the entry of a call the capture cannot be stopped; or the call is to be logged, but not even a
process that has not died tells its registers.  Either way the window is not read at this entry. -/
theorem entry_without_reading :
    (let capture : ScriptedCapture :=
        { windows := [⟨[0], true⟩], disableFailure := fun _ => some (.errno ⟨5⟩) }
      let s := (Session.run {} capture ScriptedDecoder.consistent
        (.ofScript 7 true none [.syscall .getpid])).2
      callStops .user s.acts = 1 ∧ readings s.acts = 0) ∧
    (let tracee : Tracee :=
        { pid := 7, waits := [{ status := .ok (.syscallStop 7), registers := .error ⟨5⟩ }] }
      let s := (Session.run { diagnostics := { traceSyscalls := true } }
        (ScriptedCapture.constant [0]) ScriptedDecoder.consistent tracee).2
      switches s.acts = [false, true] ∧ callStops .user s.acts = 1 ∧ readings s.acts = 0) := by
  decide +kernel

end Session

end BranchWatch
