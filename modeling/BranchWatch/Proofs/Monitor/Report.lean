import BranchWatch.Proofs.Monitor.Renewal
import Mathlib.Algebra.GroupWithZero.Nat

/-!
# The report of a run

Whatever the process, the capture and the decoder do, a run that comes to a report tells in it
exactly what its windows come to (`Session.report_of_windows`): there are as many windows as entries
to system calls were reached, each number is a sum over them, and the outcome is an attack if and
only if the last window is suspicious.  No window before it is.  The windows are those that were read
from the capture, each one as it is told by the decoder that the one before has left (`Answers`).

A run that fails has no report, and nothing is said about it here.
-/

namespace BranchWatch

namespace Verdict

variable {v : Verdict}

@[simp] theorem reason?_eq_some_iff {reason : Reason} :
    v.reason? = some reason ↔ v = .suspicious reason := by
  cases v <;> simp [reason?]

@[simp] theorem reason?_eq_none_iff : v.reason? = none ↔ v = .consistent := by
  cases v <;> simp [reason?]

end Verdict

section

variable {δ : Type}

namespace Opening

variable {config : MonitorConfig} {o : Opening δ}

theorem reason?_eq_some_iff {reason : Reason} : o.reason? config = some reason ↔
    o.isRefused = false ∧ o.isAbandoned config.windowCapacity = false ∧
      config.analyzer.judgeRecords (records o.items) = .suspicious reason := by
  simp [reason?, and_assoc]

theorem reason?_eq_none_iff : o.reason? config = none ↔
    o.isRefused = true ∨ o.isAbandoned config.windowCapacity = true ∨
      config.analyzer.judgeRecords (records o.items) = .consistent := by
  cases hrefused : o.isRefused <;> cases habandoned : o.isAbandoned config.windowCapacity <;>
    simp [reason?, hrefused, habandoned]

/-- A refused window has no items. -/
theorem items_of_isRefused (h : o.isRefused = true) : o.items = [] := by
  cases o with
  | refused e left => rfl
  | opened items => cases h

end Opening

theorem Report.ofOpenings_eq (capacity : Nat) (os : List (Opening δ)) :
    Report.ofOpenings capacity os =
      { windows := os.length
        skippedWindows := os.countP (·.isRefused)
        abandonedWindows := os.countP (·.isAbandoned capacity)
        instructions := ((os.filter (!·.isRefused)).map (·.kept capacity)).sum
        decodeErrors := (os.map (·.errors capacity)).sum } := by
  induction os with
  | nil => rfl
  | cons o os ih =>
      show (Report.ofOpenings capacity os).closing capacity o = _
      rw [ih]
      cases hrefused : o.isRefused with
      | true =>
          have hitems := Opening.items_of_isRefused hrefused
          simp [Report.closing, hrefused, hitems, drained, Opening.kept, Opening.errors,
            Opening.isAbandoned]
      | false =>
          simp [Report.closing, hrefused, Opening.kept, Opening.errors, List.countP_cons,
            Nat.add_comm]

theorem Outcome.ofOpenings_eq_iff {config : MonitorConfig} {pid pid' : Int} {reason : Reason}
    {os : List (Opening δ)} :
    Outcome.ofOpenings config pid os = .attackDetected pid' reason ↔
      pid' = pid ∧ ∃ o, os.head? = some o ∧ o.reason? config = some reason := by
  unfold Outcome.ofOpenings
  cases hlast : os.head? with
  | none => simp
  | some o => cases hreason : o.reason? config <;> simp [hreason, eq_comm]

end

section

variable {δ : Type} [TraceDecoder δ] {capacity : Nat} {first : δ} {acts : List (Act δ)}
  {ws : List TraceWindow} {os : List (Opening δ)}

/-- Window by window, what the decoder says: each time it is the one that the window before has
left. -/
inductive Answers (capacity : Nat) : δ → List TraceWindow → List (Opening δ) → Prop
  | nil (d : δ) : Answers capacity d [] []
  | cons {d : δ} {w : TraceWindow} {ws : List TraceWindow} {o : Opening δ} {os : List (Opening δ)}
      (ho : o = TraceDecoder.restart d w.bytes ∨ o = TraceDecoder.resync d w.bytes)
      (h : Answers capacity (o.left capacity) ws os) : Answers capacity d (w :: ws) (o :: os)

theorem Answers.concat {w : TraceWindow} {o : Opening δ} (h : Answers capacity first ws os)
    (ho : let last := (os.getLast?.map (·.left capacity)).getD first
      o = TraceDecoder.restart last w.bytes ∨ o = TraceDecoder.resync last w.bytes) :
    Answers capacity first (ws ++ [w]) (os ++ [o]) := by
  induction h with
  | nil d => exact .cons ho (.nil _)
  | @cons d v vs p ps hp h ih =>
      refine .cons hp (ih ?_)
      rw [List.getLast?_cons] at ho
      cases hps : ps.getLast? <;> rw [hps] at ho <;> exact ho

/-- The windows that were read from the capture, in order. -/
def windowsRead (acts : List (Act δ)) : List TraceWindow :=
  (acts.filterMap fun
    | .readWindow w => some w
    | _ => none).reverse

omit [TraceDecoder δ] in
theorem windowsRead_cons {a : Act δ} (h : a.isOfWindow = false) :
    windowsRead (a :: acts) = windowsRead acts := by
  cases a <;> first | rfl | cases h

omit [TraceDecoder δ] in
theorem windowsRead_noted (ns : List Notice) :
    windowsRead (ns.map .noted ++ acts) = windowsRead acts := by
  induction ns with
  | nil => rfl
  | cons n ns ih => exact ih

omit [TraceDecoder δ] in
theorem lastDecoder_eq : lastDecoder capacity first acts =
    ((openings acts).reverse.getLast?.map (·.left capacity)).getD first := by
  rw [List.getLast?_reverse]
  induction acts with
  | nil => rfl
  | cons a acts ih =>
      cases hopening : a.opening? with
      | none =>
          have hopenings : openings (a :: acts) = openings acts := by simp [openings, hopening]
          rw [lastDecoder_cons hopening, hopenings, ih]
      | some o => cases a <;> first | rfl | cases hopening

/-- What was done tells what the decoders have said. -/
theorem Dated.answers (h : Dated capacity first acts) :
    Answers capacity first (windowsRead acts) (openings acts).reverse := by
  induction h with
  | nil => exact .nil first
  | @cons a acts ha h ih =>
      have hopening : a.opening? = none := by cases a <;> first | rfl | cases ha
      have hopenings : openings (a :: acts) = openings acts := by simp [openings, hopening]
      rw [windowsRead_cons ha, hopenings]
      exact ih
  | @window acts anew o h w ns hanew ho ih =>
      have hwindows : windowsRead (.decoded anew o :: (ns.map .noted ++ .readWindow w :: acts)) =
          windowsRead acts ++ [w] := by
        show windowsRead (ns.map .noted ++ .readWindow w :: acts) = _
        rw [windowsRead_noted]
        exact List.reverse_cons
      have hopenings : openings (.decoded anew o :: (ns.map .noted ++ .readWindow w :: acts)) =
          o :: openings acts := by
        show o :: openings (ns.map .noted ++ .readWindow w :: acts) = _
        rw [openings_append_noted]
        rfl
      rw [hwindows, hopenings, List.reverse_cons]
      refine ih.concat ?_
      rw [← lastDecoder_eq, ho]
      cases anew
      · exact .inr rfl
      · exact .inl rfl

end

namespace Session

variable {κ δ : Type}

/-- The windows of a run, in order. -/
def windows (s : Session κ δ) : List (Opening δ) := (openings s.acts).reverse

variable {config : MonitorConfig} {capture : κ} {decoder : δ} {tracee : Tracee} {report : Report}
  {s s' : Session κ δ}

theorem start_tally (config : MonitorConfig) (capture : κ) (decoder : δ) (tracee : Tracee) :
    Tally config tracee.pid .user (start config capture decoder tracee) :=
  ⟨rfl, rfl, rfl, rfl, rfl, rfl, .inl rfl⟩

variable [TraceCapture κ] [TraceDecoder δ]

/-- The process is let run for the first time. -/
theorem Tally.resuming {stop : StopAnswers} {waits : List WaitAnswer} {process : Int}
    {status : Option ExitStatus} (h : Tally config process .user s) (hharmless : s.Harmless config)
    (hresult : RunStep.resuming stop .user none waits (RunStep.follow .user waits) s =
      .ok status s') : s'.Concluded config process := by
  rw [RunStep.resuming_eq] at hresult
  cases hresume : stop.resume with
  | none =>
      rw [hresume] at hresult
      have hrunning : (s.did (.resumed .user none none)).Tally config process .user :=
        h.did rfl rfl
      exact hrunning.runs hharmless rfl (RunStep.runs_follow _ _ _) hresult
  | some e =>
      rw [hresume] at hresult
      refine h.concluded_of_did hharmless (RunStep.leaving_closing _ _ ?_) ?_ ?_ hresult
      · exact RunStep.unresumed_closing _ _ _ rfl
      · rfl
      · rfl

/-- Behind the last window only the report is completed. -/
theorem concluded_of_monitor
    (h : RunStep.monitor tracee (start config capture decoder tracee) = .ok report s') :
    ∃ (s : Session κ δ) (status : Option ExitStatus), s.Concluded config tracee.pid ∧
      report = { s.report with exitStatus := status } ∧
      s'.acts = .noted (.finished report) :: s.acts := by
  have hstart : (start config capture decoder tracee).enabled.Tally config tracee.pid .user :=
    (start_tally config capture decoder tracee).frame rfl rfl rfl rfl rfl fun _ _ => rfl
  rw [RunStep.monitor_eq] at h
  cases henable : (TraceCapture.enable (start config capture decoder tracee).capture).1 with
  | error e =>
      rw [henable] at h
      cases h
  | ok _ =>
      simp only [henable] at h
      cases hresult : RunStep.resuming tracee.first .user none tracee.waits
          (RunStep.follow .user tracee.waits) (start config capture decoder tracee).enabled with
      | error e m =>
          rw [hresult] at h
          cases h
      | ok status m =>
          rw [hresult] at h
          cases h
          exact ⟨m, status, hstart.resuming nofun hresult, rfl, rfl⟩

/-- **The report is what the windows imply.**  Windows are closed at the entries to system calls,
which take turns with the exits.  A window that the decoder refuses is skipped, one that does not
fit is abandoned, and any other is judged by its own instructions alone.  What a window is taken
for is the answer to the bytes that were read, by the decoder that the window before has left. -/
theorem report_of_windows (hmode : config.diagnostics.traceTimeOnly = false)
    (h : Session.run config capture decoder tracee = (.ok report, s)) :
    report.windows = callStops .user s.acts ∧
      report.windows = s.windows.length ∧
      report.skippedWindows = s.windows.countP (·.isRefused) ∧
      report.abandonedWindows = s.windows.countP (·.isAbandoned config.windowCapacity) ∧
      report.instructions =
        ((s.windows.filter (!·.isRefused)).map (·.kept config.windowCapacity)).sum ∧
      report.decodeErrors = (s.windows.map (·.errors config.windowCapacity)).sum ∧
      (∀ pid reason, report.outcome = .attackDetected pid reason ↔
        pid = tracee.pid ∧ ∃ last, s.windows.getLast? = some last ∧ last.isRefused = false ∧
          last.isAbandoned config.windowCapacity = false ∧
          config.analyzer.judgeRecords (records last.items) = .suspicious reason) ∧
      (∀ o ∈ s.windows.dropLast, o.isRefused = true ∨
        o.isAbandoned config.windowCapacity = true ∨
        config.analyzer.judgeRecords (records o.items) = .consistent) ∧
      Answers config.windowCapacity decoder (windowsRead s.acts) s.windows ∧
      callStops .kernel s.acts ≤ callStops .user s.acts ∧
      callStops .user s.acts ≤ callStops .kernel s.acts + 1 := by
  have hanswers := (acts_dated hmode h).answers
  unfold Session.run at h
  simp only [hmode, Bool.false_eq_true, ↓reduceIte] at h
  split at h
  next report' s' hmonitor =>
    cases h
    obtain ⟨m, status, hm, rfl, hacts⟩ := concluded_of_monitor hmonitor
    have hopenings : openings s.acts = openings m.acts := by
      rw [hacts]
      rfl
    have hstops (stretch : Stretch) : callStops stretch s.acts = callStops stretch m.acts := by
      rw [hacts]
      rfl
    unfold windows
    rw [hopenings] at hanswers
    rw [hstops, hstops, hopenings, hm.report, Report.ofOpenings_eq]
    refine ⟨?_, ?_, ?_, ?_, ?_, ?_, ?_, ?_, hanswers, hm.exits⟩
    · exact hm.entries.symm
    · exact List.length_reverse.symm
    · exact List.countP_reverse.symm
    · exact List.countP_reverse.symm
    · rw [List.filter_reverse, List.map_reverse, List.sum_reverse]
    · rw [List.map_reverse, List.sum_reverse]
    · intro pid reason
      rw [List.getLast?_reverse]
      simp only [← Opening.reason?_eq_some_iff]
      exact Outcome.ofOpenings_eq_iff
    · intro o ho
      rw [List.dropLast_reverse, List.mem_reverse] at ho
      exact Opening.reason?_eq_none_iff.1 (hm.harmless o ho)
  next e s' hmonitor => cases h

/-- Two calls; the second one comes behind a return that no call accounts for.  What stands behind
the end of the first window does not count. -/
theorem report_of_windows_unbalanced :
    let decoder : ScriptedDecoder :=
      { windows :=
          [[.ok (.synthetic .nearCall), .error (.overflow 0), .ok (.synthetic .farTransfer),
              .error .endOfStream, .ok (.synthetic .nearReturn)],
            [.ok (.synthetic .nearReturn)]] }
    let tracee : Tracee :=
      { pid := 7
        waits := Course.call 7 .getpid ++ [Course.entry 7 .getpid]
        afterKill := [Course.status (.signaled 7 .kill false)] }
    let s := (Session.run {} (ScriptedCapture.constant [0]) decoder tracee).2
    let report : Report :=
      { outcome := .attackDetected 7 (.unbalanced 2)
        exitStatus := some (.signaled .kill false)
        windows := 2
        instructions := 3
        decodeErrors := 1 }
    Session.run {} (ScriptedCapture.constant [0]) decoder tracee = (.ok report, s) ∧
      callStops .user s.acts = 2 ∧
      ∃ last, s.windows.getLast? = some last ∧
        Analyzer.judgeRecords {} (records last.items) = .suspicious (.unbalanced 2) := by
  intro decoder tracee s report
  have hmode : ({} : MonitorConfig).diagnostics.traceTimeOnly = false := rfl
  have hanswer : (Session.run {} (ScriptedCapture.constant [0]) decoder tracee).1 = .ok report := by
    have htold : (Session.run {} (ScriptedCapture.constant [0]) decoder tracee).1.toOption =
        some report := by decide +kernel
    generalize (Session.run {} (ScriptedCapture.constant [0]) decoder tracee).1 = answer at htold
    cases answer with
    | ok r => exact congrArg Except.ok (Option.some.inj htold)
    | error e => cases htold
  have hrun : Session.run {} (ScriptedCapture.constant [0]) decoder tracee = (.ok report, s) := by
    rw [← hanswer]
  obtain ⟨hentries, -, -, -, -, -, houtcome, -⟩ := report_of_windows hmode hrun
  obtain ⟨-, last, hlast, -, -, hreason⟩ := (houtcome 7 (.unbalanced 2)).1 rfl
  exact ⟨hrun, hentries.symm, last, hlast, hreason⟩

end Session

end BranchWatch
