import BranchWatch.Proofs.Monitor.Turn
import BranchWatch.Proofs.Monitor.Windows

/-!
# At the entry of a system call

At the entry a window is read, decoded and judged.  What the decoder says to the window (`Opening`)
already settles what is counted (`Report.closing`), whether the window is suspicious
(`Opening.reason?`) and which decoder is left (`Opening.left`), and nothing that the session held
before has a part in it.  `atEntry_ok` says that the analysis comes to this, whichever notices are
made on the way (`Closed`), and `atEntry_error` what can break it off.
-/

namespace BranchWatch

namespace Opening

variable {δ : Type}

/-- The items of the window; none if it was refused. -/
def items : Opening δ → List Item
  | refused .. => []
  | opened stream => stream.toList

def isRefused : Opening δ → Bool
  | refused .. => true
  | opened _ => false

/-- The window has more instructions than are kept. -/
def isAbandoned (capacity : Nat) (o : Opening δ) : Bool := capacity < (records o.items).length

/-- How many instructions of the window are kept. -/
def kept (capacity : Nat) (o : Opening δ) : Nat :=
  min ((drained capacity o.items).countP (·.isOk)) capacity

/-- How many errors are met in the window. -/
def errors (capacity : Nat) (o : Opening δ) : Nat :=
  (drained capacity o.items).countP (!·.isOk)

/-- Why the window is suspicious, if it is judged and is. -/
def reason? (config : MonitorConfig) (o : Opening δ) : Option Reason :=
  if o.isRefused || o.isAbandoned config.windowCapacity then none
  else (config.analyzer.judgeRecords (records o.items)).reason?

/-- The decoder behind the window. -/
def left (capacity : Nat) : Opening δ → δ
  | refused _ left => left
  | opened stream => stream.decoderBehind capacity

/-- Behind the window the decoder need not look at the code again. -/
def isSettled : Opening δ → Bool
  | refused .endOfStream _ => true
  | refused _ _ => false
  | opened _ => true

end Opening

/-- The report with one more window. -/
def Report.closing {δ : Type} (capacity : Nat) (o : Opening δ) (r : Report) : Report :=
  { r with
    windows := r.windows + 1
    instructions := r.instructions + o.kept capacity
    abandonedWindows := r.abandonedWindows + if o.isAbandoned capacity then 1 else 0
    skippedWindows := r.skippedWindows + if o.isRefused then 1 else 0
    decodeErrors := r.decodeErrors + o.errors capacity }

namespace Session

variable {κ δ : Type}

/-- The session with more said, the latest first. -/
def said (s : Session κ δ) (ns : List Notice) : Session κ δ :=
  { s with acts := ns.map .noted ++ s.acts }

/-- What the decoder says to the window that was just captured. -/
def opening [TraceCapture κ] [TraceDecoder δ] (s : Session κ δ) : Opening δ :=
  if s.decodeAnew then TraceDecoder.restart s.decoder (TraceCapture.window s.capture).bytes
  else TraceDecoder.resync s.decoder (TraceCapture.window s.capture).bytes

end Session

namespace RunStep

variable {κ δ : Type} {s s' : Session κ δ}

theorem judge_eq (window : Nat) (d : Drained δ) (s : Session κ δ) :
    ∃ ns, judge window d s = .ok
      (match d.overflow with
        | some _ => none
        | none => (s.config.analyzer.judgeRecords d.buffer.toList).reason?)
      ({ s with
        decoder := d.decoder
        buffer := d.buffer
        report := { s.report with
          instructions := s.report.instructions + d.buffer.size
          abandonedWindows := s.report.abandonedWindows + if d.overflow.isSome then 1 else 0
          decodeErrors := s.report.decodeErrors + d.errors } }.said ns) := by
  rcases d with ⟨decoder, buffer, overflow, errors, notices⟩
  rcases overflow with _ | e <;> cases htime : s.config.diagnostics.timeAnalysis <;>
    simp only [judge, bind_apply, modify_eq, get_eq, pure_eq, updateReport_eq, htime]
  · exact ⟨notices, rfl⟩
  · exact ⟨.analyzed window buffer.size :: notices, rfl⟩
  · exact ⟨.abandoned window e :: notices, rfl⟩
  · exact ⟨.analyzed window buffer.size :: .abandoned window e :: notices, rfl⟩

/-- The call is logged, or the process has died, or this is an error. -/
theorem logSyscall_cases (stop : StopAnswers) (s : Session κ δ) :
    (∃ ns, logSyscall stop s = .ok () (s.said ns)) ∨
      ∃ e, e ≠ .noProcess ∧ stop.registers = .error e ∧
        logSyscall stop s = .error (.tracee (.errno e)) s := by
  unfold logSyscall
  cases stop.registers with
  | ok request => exact .inl ⟨[.syscall request], rfl⟩
  | error e =>
      by_cases he : e = .noProcess
      · exact .inl ⟨[], by simp only [he, ↓reduceIte]; rfl⟩
      · exact .inr ⟨e, he, rfl, by simp only [he, ↓reduceIte]; rfl⟩

/-- What follows the analysis of a window: it is told, or a line is read if the run goes step by
step. -/
def tell (stop : StopAnswers) (step : Bool) : Option Reason → RunStep κ δ (Option Reason)
  | some reason => do
    note (.suspicious (← get).report.windows reason)
    return some reason
  | none => do
    if step then awaitEnter stop
    return none

/-- The answer of the analysis stays, whatever is said about it, unless no line can be read. -/
theorem tell_cases (stop : StopAnswers) (step : Bool) (reason : Option Reason) (s : Session κ δ) :
    (∃ ns, tell stop step reason s = .ok reason (s.said ns)) ∨
      reason = none ∧ step = true ∧ ∃ cause, stop.unreadable = some cause ∧
        tell stop step reason s = .error (.io cause) (s.said [.awaitingEnter]) := by
  cases reason with
  | some reason => exact .inl ⟨[.suspicious s.report.windows reason], rfl⟩
  | none =>
      cases step with
      | false => exact .inl ⟨[], rfl⟩
      | true =>
          cases hline : stop.unreadable with
          | none =>
              refine .inl ⟨[.awaitingEnter], ?_⟩
              simp only [tell, awaitEnter, hline]
              rfl
          | some cause =>
              refine .inr ⟨rfl, rfl, cause, rfl, ?_⟩
              simp only [tell, awaitEnter, hline]
              rfl

/-- What closing a window does to a session: `counted` is what it adds to the number of windows,
and `reason` the answer. -/
structure Closed [TraceCapture κ] [TraceDecoder δ] (s : Session κ δ) (counted : Nat)
    (reason : Option Reason) (s' : Session κ δ) : Prop where
  config : s'.config = s.config
  pid : s'.pid = s.pid
  afterKill : s'.afterKill = s.afterKill
  capture : s'.capture = s.capture
  capacity : s'.buffer.capacity = s.buffer.capacity
  decoder : s'.decoder = s.opening.left s.config.windowCapacity
  decodeAnew : s'.decodeAnew = (s.decodeAnew && !s.opening.isSettled)
  report : s'.report = { s.report.closing s.config.windowCapacity s.opening with
    windows := s.report.windows + counted }
  acts : ∃ first second third : List Notice, s'.acts =
    third.map .noted ++ .decoded s.decodeAnew s.opening ::
      (second.map .noted ++ .readWindow (TraceCapture.window s.capture) ::
        (first.map .noted ++ s.acts))
  reason : reason = s.opening.reason? s.config

section

variable [TraceCapture κ] [TraceDecoder δ]

/-- The session in which the answer of the decoder is looked at. -/
def decoding (s : Session κ δ) : Session κ δ :=
  ((s.did (.readWindow (TraceCapture.window s.capture))).said
    (if (TraceCapture.window s.capture).truncated then [.ringFull s.report.windows] else [])).did
      (.decoded s.decodeAnew s.opening)

theorem analyze_opened {stream : ItemStream δ} (h : s.opening = .opened stream) :
    analyze s = judge s.report.windows
      (drain s.report.windows s.config.diagnostics.logInstructions s.buffer.clear 0 [] stream)
      { decoding s with decodeAnew := false } := by
  have hanswer := h
  unfold Session.opening at hanswer
  cases hfull : (TraceCapture.window s.capture).truncated <;>
    simp only [analyze, decoding, bind_apply, get_eq, record_eq, note_eq, modify_eq, hanswer, h,
      hfull, Bool.false_eq_true, ↓reduceIte] <;> rfl

theorem analyze_refused {e : DecodeError} {left : δ} (h : s.opening = .refused e left) :
    analyze s = .ok none
      { (decoding s).said [if e = .endOfStream then .emptyWindow s.report.windows
          else .undecodable s.report.windows e] with
        decoder := left
        decodeAnew := s.decodeAnew && !s.opening.isSettled
        report := { s.report with skippedWindows := s.report.skippedWindows + 1 } } := by
  have hanswer := h
  unfold Session.opening at hanswer
  have hsettled : s.opening.isSettled = decide (e = .endOfStream) := by
    rw [h]
    cases e <;> rfl
  rw [hsettled]
  cases hfull : (TraceCapture.window s.capture).truncated <;> by_cases he : e = .endOfStream <;>
    simp only [analyze, decoding, bind_apply, get_eq, record_eq, note_eq, modify_eq, pure_eq,
      updateReport_eq, hanswer, h, hfull, he, decide_true, decide_false, Bool.not_true,
      Bool.not_false, Bool.and_true, Bool.and_false, Bool.false_eq_true, ↓reduceIte] <;> rfl

theorem closed_of_refused {e : DecodeError} {left : δ} (h : s.opening = .refused e left) :
    ∃ s', analyze s = .ok none s' ∧ Closed s 0 none s' := by
  refine ⟨_, analyze_refused h, rfl, rfl, rfl, rfl, rfl, ?_, rfl, ?_, ?_, ?_⟩
  · rw [h]
    rfl
  · simp [Report.closing, h, Opening.kept, Opening.errors, Opening.items, Opening.isAbandoned,
      Opening.isRefused, drained]
  · exact ⟨[], _, [_], rfl⟩
  · simp [Opening.reason?, h, Opening.isRefused]

theorem closed_of_opened {stream : ItemStream δ} (h : s.opening = .opened stream)
    (hcapacity : s.buffer.capacity = s.config.windowCapacity) :
    ∃ reason s', analyze s = .ok reason s' ∧ Closed s 0 reason s' := by
  have hanalyze := analyze_opened h
  have hdrain := drain_clear s.report.windows s.config.diagnostics.logInstructions s.buffer []
    stream
  generalize drain s.report.windows s.config.diagnostics.logInstructions s.buffer.clear 0 []
    stream = d at hanalyze hdrain
  obtain ⟨hkept, hsize, herrors, hoverflow, hfits, hleft⟩ := hdrain
  obtain ⟨ns, hjudge⟩ := judge_eq s.report.windows d { decoding s with decodeAnew := false }
  have hitems : s.opening.items = stream.toList := by rw [h]; rfl
  have hrefused : s.opening.isRefused = false := by rw [h]; rfl
  have hsettled : s.opening.isSettled = true := by rw [h]; rfl
  rw [hcapacity] at hsize herrors hoverflow hfits hleft
  refine ⟨_, _, hanalyze.trans hjudge, rfl, rfl, rfl, rfl, hkept, ?_, ?_, ?_, ?_, ?_⟩
  · rw [h]
    exact hleft
  · simp [hsettled, Session.said]
  · simp [Report.closing, Session.said, decoding, Opening.kept, Opening.errors, hitems, hrefused,
      hsize, herrors, hoverflow, Opening.isAbandoned]
  · exact ⟨[], _, ns, rfl⟩
  · rw [hoverflow]
    by_cases habandoned : s.config.windowCapacity < (records stream.toList).length
    · simp [Opening.reason?, Opening.isAbandoned, hrefused, hitems, habandoned]
    · simp [Opening.reason?, Opening.isAbandoned, hrefused, hitems, habandoned,
        hfits (Nat.le_of_not_lt habandoned)]
      rfl

/-- The analysis of a window never fails. -/
theorem analyze_closed (hcapacity : s.buffer.capacity = s.config.windowCapacity) :
    ∃ reason s', analyze s = .ok reason s' ∧ Closed s 0 reason s' := by
  cases h : s.opening with
  | refused e left => exact ⟨none, closed_of_refused h⟩
  | opened stream => exact closed_of_opened h hcapacity

/-- What was said before does not count. -/
theorem Closed.of_said {reason : Option Reason} {n : Nat} (ns : List Notice)
    (h : Closed ({ s with report := { s.report with windows := s.report.windows + n } }.said ns) 0
      reason s') : Closed s n reason s' := by
  obtain ⟨first, second, third, hacts⟩ := h.acts
  refine ⟨h.config, h.pid, h.afterKill, h.capture, h.capacity, h.decoder, h.decodeAnew, h.report,
    ?_, h.reason⟩
  refine ⟨first ++ ns, second, third, hacts.trans ?_⟩
  simp [Session.said]
  rfl

theorem Closed.said {reason : Option Reason} {n : Nat} (h : Closed s n reason s')
    (ns : List Notice) : Closed s n reason (s'.said ns) := by
  obtain ⟨first, second, third, hacts⟩ := h.acts
  refine ⟨h.config, h.pid, h.afterKill, h.capture, h.capacity, h.decoder, h.decodeAnew, h.report,
    ?_, h.reason⟩
  exact ⟨first, second, ns ++ third, by simp [Session.said, hacts]⟩

/-- Behind the analysis something is said about it, or a line is read. -/
theorem closed_of_analyze (stop : StopAnswers)
    (hcapacity : s.buffer.capacity = s.config.windowCapacity) (step : Bool) :
    ∃ reason s', Closed s 0 reason s' ∧ ((analyze >>= tell stop step) s = .ok reason s' ∨
      reason = none ∧ step = true ∧ ∃ cause, stop.unreadable = some cause ∧
        (analyze >>= tell stop step) s = .error (.io cause) s') := by
  obtain ⟨reason, m, hanalyze, hclosed⟩ := analyze_closed hcapacity
  rw [bind_apply, hanalyze]
  rcases tell_cases stop step reason m with ⟨ns, hm⟩ | ⟨hnone, hstep, cause, hline, hm⟩
  · exact ⟨reason, m.said ns, hclosed.said ns, .inl hm⟩
  · exact ⟨reason, m.said [.awaitingEnter], hclosed.said _, .inr ⟨hnone, hstep, cause, hline, hm⟩⟩

/-- At the entry of a system call the window is closed and counted, unless the call is to be logged
and cannot be.  Behind this the run waits for a line if it goes step by step, and breaks off if
there is none. -/
theorem atEntry_cases (stop : StopAnswers)
    (hcapacity : s.buffer.capacity = s.config.windowCapacity) :
    (∃ reason s', Closed s 1 reason s' ∧ (atEntry stop s = .ok reason s' ∨
      reason = none ∧ s.config.diagnostics.step = true ∧ ∃ cause, stop.unreadable = some cause ∧
        atEntry stop s = .error (.io cause) s')) ∨
      s.config.diagnostics.traceSyscalls = true ∧ ∃ e, e ≠ .noProcess ∧
        stop.registers = .error e ∧ atEntry stop s = .error (.tracee (.errno e))
          { s with report := { s.report with windows := s.report.windows + 1 } } := by
  have hclosed (ns : List Notice) := closed_of_analyze
    (s := { s with report := { s.report with windows := s.report.windows + 1 } }.said ns)
    stop hcapacity s.config.diagnostics.step
  have hentry : atEntry stop s = (do
      if s.config.diagnostics.traceSyscalls then logSyscall stop
      analyze >>= tell stop s.config.diagnostics.step : RunStep κ δ (Option Reason))
        { s with report := { s.report with windows := s.report.windows + 1 } } := by
    simp only [atEntry, bind_apply (updateReport _), bind_apply get, updateReport_eq, get_eq]
    rfl
  rw [hentry]
  cases hcalls : s.config.diagnostics.traceSyscalls with
  | false =>
      obtain ⟨reason, s', h, hs'⟩ := hclosed []
      simp only [Bool.false_eq_true, ↓reduceIte]
      exact .inl ⟨reason, s', .of_said [] h, hs'⟩
  | true =>
      simp only [↓reduceIte, bind_apply (logSyscall stop)]
      rcases logSyscall_cases stop
          { s with report := { s.report with windows := s.report.windows + 1 } } with
        ⟨ns, hlog⟩ | ⟨e, he, hregisters, hlog⟩ <;> rw [hlog] <;> simp only
      · obtain ⟨reason, s', h, hs'⟩ := hclosed ns
        exact .inl ⟨reason, s', .of_said ns h, hs'⟩
      · exact .inr ⟨trivial, e, he, hregisters, rfl⟩

theorem atEntry_ok {stop : StopAnswers} {reason : Option Reason}
    (hcapacity : s.buffer.capacity = s.config.windowCapacity)
    (h : atEntry stop s = .ok reason s') : Closed s 1 reason s' := by
  rcases atEntry_cases stop hcapacity with
    ⟨reason', m, hclosed, hm | ⟨-, -, cause, -, hm⟩⟩ | ⟨-, e, -, -, hm⟩ <;> rw [hm] at h <;> cases h
  exact hclosed

/-- What is done at an entry breaks off before the window is read or behind it. -/
theorem atEntry_error {stop : StopAnswers} {e : MonitorError}
    (hcapacity : s.buffer.capacity = s.config.windowCapacity)
    (h : atEntry stop s = .error e s') :
    (s.config.diagnostics.traceSyscalls = true ∧
      s' = { s with report := { s.report with windows := s.report.windows + 1 } } ∧
      ∃ errno, errno ≠ .noProcess ∧ stop.registers = .error errno ∧ e = .tracee (.errno errno)) ∨
    (s.config.diagnostics.step = true ∧ Closed s 1 none s' ∧
      ∃ cause, stop.unreadable = some cause ∧ e = .io cause) := by
  rcases atEntry_cases stop hcapacity with
    ⟨reason, m, hclosed, hm | ⟨rfl, hstep, cause, hline, hm⟩⟩ |
      ⟨hlog, errno, herrno, hregisters, hm⟩ <;>
    rw [hm] at h <;> cases h
  · exact .inr ⟨hstep, hclosed, cause, hline, rfl⟩
  · exact .inl ⟨hlog, rfl, errno, herrno, hregisters, rfl⟩

end

end RunStep

end BranchWatch
