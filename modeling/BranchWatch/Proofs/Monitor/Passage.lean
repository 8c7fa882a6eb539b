import BranchWatch.Proofs.Monitor.Disappearance

/-!
# Signals on their way

A signal is reported at a stop and goes on with the request that lets the process run from there.
`Passage` is where a run stands in this, and `Passage.Step` says which act has room there.  What
follows is read off any list of acts with room for each (`Passage.Path`): a stop is answered once
and with its own signal (`Path.answers_of_stopped`), so the signals that go on are those that were
reported, up to one that is still pending (`Path.pending_append`).

Acts are listed here in the order in which they were done, and only up to the one behind which the
process is not followed any more (`Act.isOver`).
-/

namespace BranchWatch

/-- What is asked of a process that is stopped. -/
inductive Request where
  | run (signal : Option Signal)
  | kill
  deriving DecidableEq

namespace Act

variable {δ : Type}

/-- The process has ended, is killed, or can be followed no more. -/
def isOver : Act δ → Bool
  | waited (.ok (.exited ..)) | waited (.error _) | resumed _ _ (some _) | killed _ => true
  | _ => false

def isWaited : Act δ → Bool
  | waited _ => true
  | _ => false

def request? : Act δ → Option Request
  | resumed _ signal _ => some (.run signal)
  | killed _ => some .kill
  | _ => none

/-- The signal that a stop reports. -/
def reported? : Act δ → Option Signal
  | waited (.ok (.stopped _ event)) => event.signal?
  | _ => none

/-- The signal with which the process runs on. -/
def injected? : Act δ → Option Signal
  | resumed _ signal none => signal
  | _ => none

/-- Done by the monitor without a word to the process. -/
def isInternal : Act δ → Bool
  | enabled _ | disabled _ | readWindow _ | decoded .. | noted _ => true
  | _ => false

/-- Done while a run is brought to its end. -/
def isFarewell : Act δ → Bool
  | disabled _ | noted _ => true
  | _ => false

end Act

/-- The requests before the next answer to waiting. -/
def answers {δ : Type} (acts : List (Act δ)) : List Request :=
  (acts.takeWhile fun a => !a.isWaited).filterMap Act.request?

section

variable {δ : Type} {a : Act δ} {acts : List (Act δ)}

theorem answers_cons_of_isWaited (h : a.isWaited = true) : answers (a :: acts) = [] := by
  simp [answers, h]

theorem answers_cons (h : a.isWaited = false) :
    answers (a :: acts) = a.request?.toList ++ answers acts := by
  cases hrequest : a.request? <;> simp [answers, h, hrequest]

/-- The acts up to the first one with which it is over. -/
def untilOver : List (Act δ) → List (Act δ)
  | [] => []
  | a :: acts => if a.isOver then [a] else a :: untilOver acts

theorem any_isOver_untilOver (acts : List (Act δ)) :
    (untilOver acts).any (·.isOver) = acts.any (·.isOver) := by
  induction acts with
  | nil => rfl
  | cons a acts ih => cases hover : a.isOver <;> simp [untilOver, hover, ih]

theorem untilOver_concat_of_over (h : acts.any (·.isOver) = true) (a : Act δ) :
    untilOver (acts ++ [a]) = untilOver acts := by
  induction acts with
  | nil => cases h
  | cons b acts ih =>
      cases hover : b.isOver with
      | true => simp [untilOver, hover]
      | false =>
          rw [List.any_cons, hover, Bool.false_or] at h
          simp [untilOver, hover, ih h]

theorem untilOver_concat (h : acts.any (·.isOver) = false) (a : Act δ) :
    untilOver (acts ++ [a]) = untilOver acts ++ [a] := by
  induction acts with
  | nil => cases hover : a.isOver <;> simp [untilOver, hover]
  | cons b acts ih =>
      rw [List.any_cons, Bool.or_eq_false_iff] at h
      simp [untilOver, h.1, ih h.2]

end

/-- Where a run stands between a stop and the request that answers it. -/
inductive Passage where
  /-- The process is held before it is let run for the first time. -/
  | held
  | running (stretch : Stretch)
  /-- The process was stopped in the stretch, and has not been answered. -/
  | stopped (stretch : Stretch) (event : StopEvent)
  /-- The process could not be let run. -/
  | refused (signal : Option Signal) (e : Errno)
  | gone
  /-- Nothing more is told of the process. -/
  | ended

namespace Passage

/-- Here the process is not followed any more. -/
def isFinal : Passage → Bool
  | refused .. | gone => true
  | _ => false

/-- The signal that was reported and has not gone on. -/
def pending : Passage → List Signal
  | stopped _ event => event.signal?.toList
  | refused signal _ => signal.toList
  | _ => []

variable {δ : Type}

/-- There is room for the act, and where the run stands behind it. -/
inductive Step : Passage → Act δ → Passage → Prop
  | prepare {a : Act δ} (h : a.isInternal = true) : Step held a held
  | start (stretch : Stretch) : Step held (.resumed stretch none none) (running stretch)
  | startFails (stretch : Stretch) (e : Errno) :
      Step held (.resumed stretch none (some e)) (refused none e)
  | stop (stretch : Stretch) (pid : Int) (event : StopEvent) :
      Step (running stretch) (.waited (.ok (.stopped pid event))) (stopped stretch event)
  | vanish (stretch : Stretch) {state : Except TraceeError ProcessState}
      (h : ∀ pid event, state ≠ .ok (.stopped pid event)) :
      Step (running stretch) (.waited state) gone
  | leave (stretch : Stretch) {a : Act δ} (h : a.isFarewell = true) :
      Step (running stretch) a ended
  | stay {a : Act δ} (h : a.isFarewell = true) : Step ended a ended
  | say (stretch : Stretch) (event : StopEvent) (n : Notice) :
      Step (stopped stretch event) (.noted n) (stopped stretch event)
  /-- The capture is switched and a window is read at system calls only. -/
  | work (stretch : Stretch) {a : Act δ} (h : a.isInternal = true) :
      Step (stopped stretch .syscall) a (stopped stretch .syscall)
  | kill (stretch : Stretch) (failure : Option Errno) :
      Step (stopped stretch .syscall) (.killed failure) gone
  /-- One stretch ends and another begins at system calls only. -/
  | resume {stretch stretch' : Stretch} {event : StopEvent}
      (h : event = .syscall ∨ stretch' = stretch) :
      Step (stopped stretch event) (.resumed stretch' event.signal? none) (running stretch')
  | resumeFails {stretch stretch' : Stretch} {event : StopEvent}
      (h : event = .syscall ∨ stretch' = stretch) (e : Errno) :
      Step (stopped stretch event) (.resumed stretch' event.signal? (some e))
        (refused event.signal? e)

/-- There is room for the acts, one after the other. -/
inductive Path : Passage → List (Act δ) → Passage → Prop
  | nil (p : Passage) : Path p [] p
  | cons {p q r : Passage} {a : Act δ} {acts : List (Act δ)} (ha : Step p a q)
      (h : Path q acts r) : Path p (a :: acts) r

variable {p q r : Passage} {a : Act δ} {acts before after : List (Act δ)} {stretch : Stretch}
  {event : StopEvent}

theorem Path.append (h : Path p before q) (h' : Path q after r) : Path p (before ++ after) r := by
  induction h with
  | nil => exact h'
  | cons ha h ih => exact .cons ha (ih h')

theorem Path.split (h : Path p (before ++ after) r) : ∃ q, Path p before q ∧ Path q after r := by
  induction before generalizing p with
  | nil => exact ⟨p, .nil p, h⟩
  | cons a before ih =>
      cases h with
      | cons ha h =>
          obtain ⟨q, hbefore, hafter⟩ := ih h
          exact ⟨q, .cons ha hbefore, hafter⟩

/-- The last act leads to where the run stands. -/
theorem Path.last (h : Path p acts q) (hne : p ≠ q) :
    ∃ init a m, acts = init ++ [a] ∧ Step m a q := by
  rcases List.eq_nil_or_concat acts with rfl | ⟨init, a, hacts⟩
  · cases h
    exact absurd rfl hne
  · rw [List.concat_eq_append] at hacts
    subst hacts
    obtain ⟨m, -, hlast⟩ := h.split
    cases hlast with
    | cons ha h =>
        cases h
        exact ⟨init, a, m, rfl, ha⟩

theorem isOver_of_isInternal (h : a.isInternal = true) : a.isOver = false := by
  cases a <;> first | rfl | cases h

theorem isOver_of_isFarewell (h : a.isFarewell = true) : a.isOver = false := by
  cases a <;> first | rfl | cases h

/-- It is over exactly where nothing has room any more. -/
theorem Step.isFinal_eq (h : Step p a q) : p.isFinal = false ∧ q.isFinal = a.isOver := by
  cases h with
  | prepare h | work stretch h => exact ⟨rfl, (isOver_of_isInternal h).symm⟩
  | leave stretch h | stay h => exact ⟨rfl, (isOver_of_isFarewell h).symm⟩
  | @vanish stretch state h =>
      refine ⟨rfl, ?_⟩
      rcases state with e | ⟨pid, event⟩ | ⟨pid, status⟩
      · rfl
      · exact absurd rfl (h pid event)
      · rfl
  | _ => exact ⟨rfl, rfl⟩

theorem Path.any_isOver (h : Path p acts q) (hp : p.isFinal = false) :
    acts.any (·.isOver) = q.isFinal := by
  induction h with
  | nil p => exact hp.symm
  | @cons p q r a acts ha h ih =>
      cases hover : a.isOver with
      | false => rw [List.any_cons, hover, Bool.false_or, ih (ha.isFinal_eq.2.trans hover)]
      | true =>
          -- Nothing has room behind it.
          cases h with
          | nil => rw [ha.isFinal_eq.2, hover, List.any_cons, hover, Bool.true_or]
          | cons hb h =>
              have hfinal := ha.isFinal_eq.2
              rw [hb.isFinal_eq.1, hover] at hfinal
              cases hfinal

/-! ## How a stop is answered -/

theorem answers_of_isFarewell (h : a.isFarewell = true) :
    answers (a :: acts) = answers acts := by
  cases a <;> first | rfl | cases h

theorem answers_of_isInternal (h : a.isInternal = true) :
    answers (a :: acts) = answers acts := by
  cases a <;> first | rfl | cases h

theorem Path.answers_of_ended (h : Path ended acts q) : answers acts = [] := by
  generalize hp : ended = p at h
  induction h with
  | nil => rfl
  | cons ha h ih =>
      subst hp
      cases ha with
      | stay hfarewell => rw [answers_of_isFarewell hfarewell, ih rfl]

/-- Nothing is asked of a process that runs. -/
theorem Path.answers_of_running (h : Path (running stretch) acts q) : answers acts = [] := by
  cases h with
  | nil => rfl
  | cons ha h =>
      cases ha with
      | stop _ pid event => exact answers_cons_of_isWaited rfl
      | vanish _ h => exact answers_cons_of_isWaited rfl
      | leave _ hfarewell => rw [answers_of_isFarewell hfarewell, h.answers_of_ended]

theorem Path.eq_nil_of_isFinal (h : Path p acts q) (hp : p.isFinal = true) : acts = [] := by
  cases h with
  | nil => rfl
  | cons ha h =>
      rw [ha.isFinal_eq.1] at hp
      cases hp

/-- A stop is answered by one request, which has its signal.  At a system call the process may be
killed instead.  Otherwise it was not answered at all. -/
theorem Path.answers_of_stopped (h : Path (stopped stretch event) acts q) :
    answers acts = [.run event.signal?] ∨ (event = .syscall ∧ answers acts = [.kill]) ∨
      (answers acts = [] ∧ q = stopped stretch event) := by
  generalize hp : stopped stretch event = p at h
  induction h with
  | nil => exact .inr (.inr ⟨rfl, rfl⟩)
  | cons ha h ih =>
      subst hp
      cases ha with
      | say _ _ n => rw [answers_of_isInternal rfl]; exact ih rfl
      | work _ hinternal => rw [answers_of_isInternal hinternal]; exact ih rfl
      | kill _ failure =>
          rw [h.eq_nil_of_isFinal rfl]
          exact .inr (.inl ⟨rfl, rfl⟩)
      | resume hstretch =>
          rw [answers_cons rfl, h.answers_of_running]
          exact .inl rfl
      | resumeFails hstretch e =>
          rw [h.eq_nil_of_isFinal rfl]
          exact .inl rfl

/-- Unless it is at a system call, a stop is only noted before the process is let run in the stretch
in which it ran before. -/
theorem Path.resumed_of_stopped (h : Path (stopped stretch event) acts q)
    (hevent : event ≠ .syscall) : q = stopped stretch event ∨
      ∃ (ns : List Notice) (failure : Option Errno) (rest : List (Act δ)),
        acts = ns.map .noted ++ .resumed stretch event.signal? failure :: rest := by
  generalize hp : stopped stretch event = p at h
  induction h with
  | nil => exact .inl rfl
  | cons ha h ih =>
      subst hp
      cases ha with
      | say _ _ n =>
          obtain hq | ⟨ns, failure, rest, rfl⟩ := ih rfl
          · exact .inl hq
          · exact .inr ⟨n :: ns, failure, rest, rfl⟩
      | work _ hinternal => exact absurd rfl hevent
      | kill _ failure => exact absurd rfl hevent
      | resume hstretch =>
          obtain rfl := hstretch.resolve_left hevent
          exact .inr ⟨[], none, _, rfl⟩
      | resumeFails hstretch e =>
          obtain rfl := hstretch.resolve_left hevent
          exact .inr ⟨[], some e, _, rfl⟩

/-! ## Which signals go on -/

theorem Step.pending_append (h : Step p a q) :
    p.pending ++ a.reported?.toList = a.injected?.toList ++ q.pending := by
  cases h with
  | prepare h | work stretch h => cases a <;> first | rfl | cases h
  | leave stretch h | stay h => cases a <;> first | rfl | cases h
  | @vanish stretch state h =>
      rcases state with e | ⟨pid, event⟩ | ⟨pid, status⟩
      · rfl
      · exact absurd rfl (h pid event)
      · rfl
  | _ => simp [pending, Act.reported?, Act.injected?, StopEvent.signal?]

/-- The signals that were reported are those that go on, and the one that is pending. -/
theorem Path.pending_append (h : Path p acts q) :
    p.pending ++ acts.filterMap Act.reported? = acts.filterMap Act.injected? ++ q.pending := by
  induction h with
  | nil => simp
  | @cons p q r a acts ha h ih =>
      have hreported : (a :: acts).filterMap Act.reported? =
          a.reported?.toList ++ acts.filterMap Act.reported? := by
        cases hsignal : a.reported? <;> simp [hsignal]
      have hinjected : (a :: acts).filterMap Act.injected? =
          a.injected?.toList ++ acts.filterMap Act.injected? := by
        cases hsignal : a.injected? <;> simp [hsignal]
      rw [hreported, hinjected, ← List.append_assoc, ha.pending_append, List.append_assoc, ih,
        List.append_assoc]

/-- A signal is refused with the last request. -/
theorem Path.last_of_refused {signal : Option Signal} {e : Errno}
    (h : Path held acts (refused signal e)) :
    ∃ init stretch, acts = init ++ [.resumed stretch signal (some e)] := by
  obtain ⟨init, a, m, rfl, ha⟩ := h.last nofun
  cases ha with
  | startFails stretch => exact ⟨init, stretch, rfl⟩
  | @resumeFails stretch stretch' event hstretch => exact ⟨init, stretch', rfl⟩

/-- A process that runs was just let run. -/
theorem Path.last_of_running (h : Path held acts (running stretch)) :
    ∃ init signal, acts = init ++ [.resumed stretch signal none] := by
  obtain ⟨init, a, m, rfl, ha⟩ := h.last nofun
  cases ha with
  | start => exact ⟨init, none, rfl⟩
  | resume hstretch => exact ⟨init, _, rfl⟩

end Passage

end BranchWatch
