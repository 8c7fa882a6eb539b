import BranchWatch.Proofs.Monitor.Tally
import Mathlib.Data.List.Chain
import Mathlib.Data.List.TakeWhile

/-!
# The phases of a slice

From one start of the capture to the next one a run goes through a slice: the capture is started,
the process runs to the entry of a system call, the capture is stopped, the window is read, and the
process runs to the exit of the call.  `Phase` tells how far a run has come in its slice, and
`Phase.Step` is every single act for which there is room in a phase.

This module is about lists of acts only.  If every act of a list had room in its phase (`InPhase`),
then starts and stops take turns (`Phase.takeTurns`), it is known at which acts the capture is on
(`Phase.isCapturing_eq`), a slice in which the process came to the entry of a call holds one stop
and one reading (`Phase.Steps.slice`), and no window is read but in such a slice
(`Phase.exists_entry`).
-/

namespace BranchWatch

namespace Act

variable {δ : Type}

/-- The capture was asked to start (`true`) or to stop (`false`). -/
def switch? : Act δ → Option Bool
  | enabled _ => some true
  | disabled _ => some false
  | _ => none

/-- The capture was asked to start. -/
def isStart (a : Act δ) : Bool := a.switch? = some true

/-- The capture was asked to stop. -/
def isEnd (a : Act δ) : Bool := a.switch? = some false

/-- The capture was switched or its window was read. -/
def concernsCapture : Act δ → Bool
  | enabled _ | disabled _ | readWindow _ => true
  | _ => false

/-- Whether the capture is on behind the act, if it was or was not before.  It stays on no longer
than until it is asked to stop. -/
def capturing (on : Bool) : Act δ → Bool
  | enabled answer => answer.isOk
  | disabled _ => false
  | _ => on

/-- Done while a process that has died, or was killed, is waited for. -/
def isReaping : Act δ → Bool
  | waited _ | resumed .ending _ _ => true
  | _ => false

end Act

section

variable {δ : Type}

/-- How the capture was switched, the latest first. -/
def switches (acts : List (Act δ)) : List Bool := acts.filterMap Act.switch?

/-- The capture was started and has not been asked to stop since. -/
def isCapturing : List (Act δ) → Bool
  | [] => false
  | a :: acts => a.capturing (isCapturing acts)

/-- How often the process was found at a system call. -/
def callCount (acts : List (Act δ)) : Nat := acts.countP (·.isCallStop)

/-- What was asked of the capture in the current slice, in order: up to the next start among the
later acts, which have the latest first. -/
def sliceCalls (later : List (Act δ)) : List (Act δ) :=
  (later.reverse.takeWhile (!·.isStart)).filter (·.concernsCapture)

end

/-- How far a run has come in its slice. -/
inductive Phase where
  /-- The capture is off and is to be started next. -/
  | held
  /-- The capture is on, and the process is stopped. -/
  | ready
  /-- The capture is on, and the process runs to the entry of a system call. -/
  | running
  /-- The capture is on, and the process stands at the entry. -/
  | entered
  /-- The capture is on, but the process is gone. -/
  | gone
  /-- The capture is off, and the window is not read yet. -/
  | captured
  /-- The window was read, and the process is stopped. -/
  | read
  /-- The window was read, and the process runs to the exit of the call. -/
  | calling
  /-- The capture is off for good. -/
  | closed
  /-- The capture could not be switched. -/
  | failed (e : CollectorError)

namespace Phase

/-- The capture is on. -/
def isOn : Phase → Bool
  | ready | running | entered | gone => true
  | _ => false

/-- The process is between the exit of a call and the entry of the next one (`true`), or between the
entry and the exit (`false`). -/
def isBetweenCalls? : Phase → Option Bool
  | held | ready | running => some true
  | entered | captured | read | calling => some false
  | _ => none

/-- Something can be said: the process is not running, and the capture was switched as it should. -/
def canTell : Phase → Bool
  | ready | captured | read | closed => true
  | _ => false

/-- The process is waited for only to learn how it ended. -/
def isReaping : Phase → Bool
  | gone | closed => true
  | _ => false

variable {δ : Type}

/-- There is room for the act in the phase, and then another phase begins. -/
inductive Step : Phase → Act δ → Phase → Prop
  | start : Step held (.enabled (.ok ())) ready
  | startFails (e : CollectorError) : Step held (.enabled (.error e)) (failed e)
  | say {p : Phase} (hp : p.canTell = true) (n : Notice) : Step p (.noted n) p
  | run (signal : Option Signal) : Step ready (.resumed .user signal none) running
  | runFails (signal : Option Signal) (e : Errno) :
      Step ready (.resumed .user signal (some e)) gone
  | enter (pid : Int) : Step running (.waited (.ok (.stopped pid .syscall))) entered
  | stop (pid : Int) {event : StopEvent} (h : event ≠ .syscall) :
      Step running (.waited (.ok (.stopped pid event))) ready
  | vanish {state : Except TraceeError ProcessState}
      (h : ∀ pid event, state ≠ .ok (.stopped pid event)) : Step running (.waited state) gone
  | reap {p : Phase} (hp : p.isReaping = true) {a : Act δ} (ha : a.isReaping = true) : Step p a p
  /-- The slice ends without a system call. -/
  | leave {p : Phase} (hp : p = running ∨ p = gone) : Step p (.disabled (.ok ())) closed
  | close : Step entered (.disabled (.ok ())) captured
  | endFails {p : Phase} (hp : p.isOn = true) (e : CollectorError) :
      Step p (.disabled (.error e)) (failed e)
  | look (w : TraceWindow) : Step captured (.readWindow w) read
  | decode (anew : Bool) (opening : Opening δ) : Step read (.decoded anew opening) read
  | call (signal : Option Signal) : Step read (.resumed .kernel signal none) calling
  | callFails (signal : Option Signal) (e : Errno) :
      Step read (.resumed .kernel signal (some e)) closed
  | kill (failure : Option Errno) : Step read (.killed failure) closed
  | exit (pid : Int) : Step calling (.waited (.ok (.stopped pid .syscall))) held
  | stopInCall (pid : Int) {event : StopEvent} (h : event ≠ .syscall) :
      Step calling (.waited (.ok (.stopped pid event))) read
  | vanishInCall {state : Except TraceeError ProcessState}
      (h : ∀ pid event, state ≠ .ok (.stopped pid event)) : Step calling (.waited state) closed
  /-- Nobody is left to wait for. -/
  | conclude (n : Notice) : Step calling (.noted n) closed

/-- There is room for the acts, which have the latest first, one after the other. -/
inductive Steps (p : Phase) : List (Act δ) → Phase → Prop
  | nil : Steps p [] p
  | cons {acts : List (Act δ)} {q r : Phase} {a : Act δ} (h : Steps p acts q) (ha : Step q a r) :
      Steps p (a :: acts) r

end Phase

/-- There is room for all acts, and they lead to the phase.  Nothing is done before the first slice. -/
abbrev InPhase {δ : Type} (acts : List (Act δ)) (p : Phase) : Prop := Phase.Steps .held acts p

namespace Phase

variable {δ : Type} {p q r : Phase} {a : Act δ} {later earlier acts : List (Act δ)}

theorem Steps.split (h : Steps p (later ++ earlier) q) :
    ∃ m, Steps p earlier m ∧ Steps m later q := by
  induction later generalizing q with
  | nil => exact ⟨q, h, .nil⟩
  | cons a later ih =>
      cases h with
      | cons h ha =>
          obtain ⟨m, hearlier, hlater⟩ := ih h
          exact ⟨m, hearlier, hlater.cons ha⟩

/-- The phases around one act of the list. -/
theorem Steps.around (h : Steps p (later ++ a :: earlier) q) :
    ∃ m n, Steps p earlier m ∧ Step m a n ∧ Steps n later q := by
  obtain ⟨n, hearlier, hlater⟩ := h.split
  cases hearlier with
  | cons hearlier ha => exact ⟨_, n, hearlier, ha, hlater⟩

theorem Steps.noted (hp : p.canTell = true) (ns : List Notice)
    (h : Steps r acts p) : Steps r (ns.map .noted ++ acts) p := by
  induction ns with
  | nil => exact h
  | cons n ns ih => exact ih.cons (.say hp n)

/-! ## The capture is switched on and off in turns -/

/-- In which phases the capture is on. -/
theorem Step.isOn_eq (h : Step p a q) : q.isOn = a.capturing p.isOn := by
  cases h with
  | reap hp ha => cases a <;> first | rfl | cases ha
  | _ => rfl

theorem isCapturing_eq (h : InPhase acts p) : isCapturing acts = p.isOn := by
  induction h with
  | nil => rfl
  | cons h ha ih => rw [ha.isOn_eq, isCapturing, ih]

/-- If the capture is on and is not asked to stop, then it stays on. -/
theorem Steps.isOn (h : Steps p acts q) (hp : p.isOn = true)
    (hacts : ∀ a ∈ acts, a.isEnd = false) : q.isOn = true := by
  induction h with
  | nil => exact hp
  | cons h ha ih =>
      have hq := ih fun b hb => hacts b (List.mem_cons_of_mem _ hb)
      have hend := hacts _ List.mem_cons_self
      cases ha with
      | leave hp => cases hend
      | close => cases hend
      | endFails hp e => cases hend
      | say hp => exact hq
      | reap hp ha => exact hq
      | _ => first | rfl | cases hq

/-- A capture that is on and is off later was asked to stop. -/
theorem Steps.exists_end (h : Steps p later q) (hp : p.isOn = true) (hq : q.isOn = false) :
    ∃ a ∈ later, a.isEnd = true := by
  refine Classical.byContradiction fun hnone => ?_
  have hon : q.isOn = true := h.isOn hp fun a ha =>
    Bool.eq_false_iff.2 fun hend => hnone ⟨a, ha, hend⟩
  rw [hq] at hon
  cases hon

/-- In which phases the capture was switched on last, and in which it was not. -/
def lastSwitch (p : Phase) (last : Option Bool) : Prop :=
  (p.isOn = true → last = some true) ∧
    (p = held ∨ p = captured ∨ p = read ∨ p = calling → last ≠ some true)

theorem Step.lastSwitch (h : Step p a q) {last : Option Bool} (hlast : p.lastSwitch last) :
    q.lastSwitch (a.switch?.or last) ∧ (a.switch? = some true → last ≠ some true) ∧
      (a.switch? = some false → last = some true) := by
  unfold Phase.lastSwitch at hlast ⊢
  cases h with
  | say hp => exact ⟨hlast, nofun, nofun⟩
  | reap hp ha => cases a <;> first | exact ⟨hlast, nofun, nofun⟩ | cases ha
  | leave hp => rcases hp with rfl | rfl <;> simp_all [isOn, Act.switch?]
  | _ => simp_all [isOn, Act.switch?]

theorem switches_cons (a : Act δ) (acts : List (Act δ)) :
    switches (a :: acts) = a.switch?.toList ++ switches acts := by
  unfold switches
  cases h : a.switch? <;> simp [h]

/-- Starts and stops take turns, beginning with a start. -/
theorem takeTurns (h : InPhase acts p) :
    (switches acts).IsChain (· ≠ ·) ∧ (switches acts).getLast? ≠ some false ∧
      p.lastSwitch (switches acts).head? := by
  induction h with
  | nil => exact ⟨.nil, by simp [switches], by simp [Phase.lastSwitch, isOn, switches]⟩
  | @cons acts p q a h ha ih =>
      obtain ⟨hchain, hfirst, hlast⟩ := ih
      obtain ⟨hlast', hstart, hend⟩ := ha.lastSwitch hlast
      rw [switches_cons]
      cases hswitch : a.switch? with
      | none =>
          rw [hswitch] at hlast'
          exact ⟨hchain, hfirst, hlast'⟩
      | some on =>
          rw [hswitch] at hlast'
          refine ⟨hchain.cons fun y hy => ?_, ?_, hlast'⟩
          · -- The switch before it was the other one.
            cases on with
            | true => exact fun heq => hstart hswitch (hy.trans (congrArg some heq.symm))
            | false =>
                rw [hend hswitch] at hy
                cases hy
                exact Bool.false_ne_true
          · cases hswitches : switches acts with
            | nil =>
                -- A stop cannot be the first switch.
                rw [hswitches] at hend
                cases on with
                | true => simp
                | false => cases hend hswitch
            | cons b bs =>
                rw [hswitches] at hfirst
                simpa using hfirst

/-! ## Where the process runs to -/

theorem Step.isCallStop (h : Step p a q) {entry : Bool} (hq : q.isBetweenCalls? = some entry) :
    p.isBetweenCalls? = some (if a.isCallStop then !entry else entry) := by
  cases h with
  | say hp => exact hq
  | reap hp ha => cases p <;> cases hp <;> cases hq
  | @stop pid event hevent | @stopInCall pid event hevent =>
      cases hq
      cases event <;> first | rfl | exact absurd rfl hevent
  | _ => cases hq <;> rfl

/-- Every other stop at a system call is an entry. -/
theorem callCount_mod_two (h : InPhase acts p) (entry : Bool) (hp : p.isBetweenCalls? = some entry) :
    callCount acts % 2 = if entry then 0 else 1 := by
  induction h generalizing entry with
  | nil =>
      cases hp
      rfl
  | @cons acts p q a h ha ih =>
      have hbefore := ih _ (ha.isCallStop hp)
      have hcount : callCount (a :: acts) = callCount acts + if a.isCallStop then 1 else 0 :=
        List.countP_cons
      rw [hcount]
      cases hstop : a.isCallStop <;> rw [hstop] at hbefore <;> cases entry <;>
        simp only [Bool.not_true, Bool.not_false, Bool.false_eq_true, ↓reduceIte] at hbefore ⊢ <;>
        omega

theorem isReaping_eq_false_of_letsRun (h : a.letsRun .user = true) : a.isReaping = false := by
  cases a with
  | resumed stretch signal failure => cases stretch <;> cases failure <;> first | rfl | cases h
  | _ => first | rfl | cases h

/-- The process was just let run to the entry of a system call. -/
theorem runsIn_user_iff (h : InPhase acts p) : runsIn .user acts = true ↔ p = running := by
  cases h with
  | nil => exact ⟨nofun, nofun⟩
  | @cons acts p q a h ha =>
      rw [runsIn_cons]
      cases ha with
      | run signal => exact ⟨fun _ => rfl, fun _ => rfl⟩
      | say hp =>
          refine ⟨nofun, fun hp' => ?_⟩
          rw [hp'] at hp
          cases hp
      | reap hp ha =>
          refine ⟨fun hrun => ?_, fun hp' => ?_⟩
          · rw [isReaping_eq_false_of_letsRun hrun] at ha
            cases ha
          · rw [hp'] at hp
            cases hp
      | _ => exact ⟨nofun, nofun⟩

/-! ## What happens to a window -/

/-- What was asked of the capture since the process came to the entry of a system call, and what is
known of the phase as long as the slice lasts. -/
inductive SliceState (later : List (Act δ)) : Phase → Prop
  | entered (hstart : ∀ a ∈ later, a.isStart = false) (hcalls : sliceCalls later = []) :
      SliceState later entered
  | captured (hstart : ∀ a ∈ later, a.isStart = false)
      (hcalls : sliceCalls later = [.disabled (.ok ())]) : SliceState later captured
  | failed (hstart : ∀ a ∈ later, a.isStart = false) {e : CollectorError}
      (hcalls : sliceCalls later = [.disabled (.error e)]) : SliceState later (failed e)
  | done {q : Phase} {w : TraceWindow}
      (hcalls : sliceCalls later = [.disabled (.ok ()), .readWindow w])
      (hq : (∀ a ∈ later, a.isStart = false) → q = read ∨ q = calling ∨ q = held ∨ q = closed) :
      SliceState later q

theorem sliceCalls_cons (h : ∀ b ∈ a :: later, b.isStart = false) :
    sliceCalls (a :: later) = sliceCalls later ++ if a.concernsCapture then [a] else [] := by
  have hlater (b : Act δ) (hb : b ∈ later.reverse) : (!b.isStart) = true := by
    simp [h b (List.mem_cons_of_mem a (List.mem_reverse.1 hb))]
  have ha : (!a.isStart) = true := by simp [h a List.mem_cons_self]
  have hwhole : later.reverse.takeWhile (!·.isStart) = later.reverse :=
    List.takeWhile_eq_self_iff.2 hlater
  unfold sliceCalls
  rw [List.reverse_cons, List.takeWhile_append_of_pos hlater, hwhole, List.filter_append]
  simp [ha, List.filter_cons]

/-- From the next start on the slice is over. -/
theorem sliceCalls_cons_of_start (h : ∃ b ∈ a :: later, b.isStart = true) :
    sliceCalls (a :: later) = sliceCalls later := by
  have hsame : (later.reverse ++ [a]).takeWhile (!·.isStart) =
      later.reverse.takeWhile (!·.isStart) := by
    rw [List.takeWhile_append]
    split
    next hlength =>
      have hwhole : later.reverse.takeWhile (!·.isStart) = later.reverse :=
        (List.takeWhile_prefix _).eq_of_length hlength
      obtain ⟨b, hb, hstart⟩ := h
      rcases List.mem_cons.1 hb with rfl | hb
      · simp [hstart, hwhole]
      · have hb' : b ∈ later.reverse.takeWhile (!·.isStart) := by
          rw [hwhole]
          exact List.mem_reverse.2 hb
        have := List.mem_takeWhile_imp hb'
        simp [hstart] at this
    next => rfl
  unfold sliceCalls
  rw [List.reverse_cons, hsame]

/-- Once the window is read, nothing is asked of the capture in the slice. -/
theorem Step.behind_read (h : Step p a q) (hp : p = read ∨ p = calling ∨ p = held ∨ p = closed)
    (hstart : a.isStart = false) :
    (q = read ∨ q = calling ∨ q = held ∨ q = closed) ∧ a.concernsCapture = false := by
  cases h with
  | start => cases hstart
  | startFails => cases hstart
  | say => exact ⟨hp, rfl⟩
  | reap _ ha => exact ⟨hp, by cases a <;> first | rfl | cases ha⟩
  | decode | stopInCall => exact ⟨.inl rfl, rfl⟩
  | call => exact ⟨.inr (.inl rfl), rfl⟩
  | exit => exact ⟨.inr (.inr (.inl rfl)), rfl⟩
  | callFails | kill | vanishInCall | conclude => exact ⟨.inr (.inr (.inr rfl)), rfl⟩
  | leave hp' => rcases hp' with rfl | rfl <;> simp at hp
  | endFails hp' => rcases hp with rfl | rfl | rfl | rfl <;> cases hp'
  | _ => simp at hp

/-- Behind the entry to a system call the capture is stopped once and the window is read once,
before the next start, unless the run breaks off in between. -/
theorem Steps.slice (h : Steps entered later q) : SliceState later q := by
  induction h with
  | nil => exact .entered (by simp) rfl
  | @cons later q r a h ha ih =>
      have behind (hnone : ∀ b ∈ later, b.isStart = false) (hstart : a.isStart = false) :
          (∀ b ∈ a :: later, b.isStart = false) ∧ sliceCalls (a :: later) =
            sliceCalls later ++ if a.concernsCapture then [a] else [] := by
        have hnone' : ∀ b ∈ a :: later, b.isStart = false := List.forall_mem_cons.2 ⟨hstart, hnone⟩
        exact ⟨hnone', sliceCalls_cons hnone'⟩
      cases ih with
      | entered hnone hcalls =>
          cases ha with
          | close =>
              obtain ⟨hnone', hcalls'⟩ := behind hnone rfl
              exact .captured hnone' (by rw [hcalls', hcalls]; rfl)
          | endFails hp e =>
              obtain ⟨hnone', hcalls'⟩ := behind hnone rfl
              exact .failed hnone' (by rw [hcalls', hcalls]; rfl)
          | say hp => cases hp
          | reap hp => cases hp
          | leave hp => rcases hp with hp | hp <;> cases hp
      | captured hnone hcalls =>
          cases ha with
          | say hp n =>
              obtain ⟨hnone', hcalls'⟩ := behind hnone rfl
              exact .captured hnone' (by rw [hcalls', hcalls]; rfl)
          | look w =>
              obtain ⟨hnone', hcalls'⟩ := behind hnone rfl
              exact .done (by rw [hcalls', hcalls]; rfl) fun _ => .inl rfl
          | reap hp => cases hp
          | leave hp => rcases hp with hp | hp <;> cases hp
          | endFails hp => cases hp
      | failed hnone hcalls =>
          cases ha with
          | say hp => cases hp
          | reap hp => cases hp
          | leave hp => rcases hp with hp | hp <;> cases hp
          | endFails hp => cases hp
      | @done _ w hcalls hq =>
          by_cases hstart : ∃ b ∈ a :: later, b.isStart = true
          · refine .done ((sliceCalls_cons_of_start hstart).trans hcalls) fun hnone => ?_
            obtain ⟨b, hb, hstart⟩ := hstart
            rw [hnone b hb] at hstart
            cases hstart
          · have hnone : ∀ b ∈ a :: later, b.isStart = false := fun b hb =>
              Bool.eq_false_iff.2 fun hb' => hstart ⟨b, hb, hb'⟩
            obtain ⟨hr, hquiet⟩ := ha.behind_read (hq fun b hb => hnone b (List.mem_cons_of_mem a hb))
              (hnone a List.mem_cons_self)
            exact .done (by rw [sliceCalls_cons hnone, hcalls, hquiet]; rfl) fun _ => hr

/-- A window is read behind the entry to a system call, in the same slice. -/
theorem exists_entry (h : InPhase acts p) (hp : p = entered ∨ p = captured) :
    ∃ (between before : List (Act δ)) (pid : Int),
      acts = between ++ .waited (.ok (.stopped pid .syscall)) :: before ∧
        InPhase before running ∧ ∀ a ∈ between, a.isStart = false := by
  induction h with
  | nil => rcases hp with hp | hp <;> cases hp
  | @cons acts p q a h ha ih =>
      -- Only the stop itself leads to the entry; what follows stays in the slice.
      have later (hp : p = entered ∨ p = captured) (hstart : a.isStart = false) :
          ∃ (between before : List (Act δ)) (pid : Int),
            a :: acts = between ++ .waited (.ok (.stopped pid .syscall)) :: before ∧
              InPhase before running ∧ ∀ b ∈ between, b.isStart = false := by
        obtain ⟨between, before, pid, rfl, hbefore, hbetween⟩ := ih hp
        exact ⟨a :: between, before, pid, rfl, hbefore, List.forall_mem_cons.2 ⟨hstart, hbetween⟩⟩
      cases ha with
      | enter pid => exact ⟨[], acts, pid, rfl, h, by simp⟩
      | close => exact later (.inl rfl) rfl
      | say hp' => exact later hp rfl
      | reap hp' ha => rcases hp with rfl | rfl <;> cases hp'
      | _ => rcases hp with hp | hp <;> cases hp

end Phase

end BranchWatch
