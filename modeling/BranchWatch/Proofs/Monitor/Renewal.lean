import BranchWatch.Monitor.Scripted
import BranchWatch.Proofs.Monitor.Tally
import BranchWatch.Tracee.Script

/-!
# No window is decoded with an old image

The decoder looks at the code of the process when it is told to restart.  From the list of what was
done one can read whether the code that it saw last is still the code of the process
(`hasCurrentImage`): it was told to restart, this succeeded or the window was empty, and no exec was
told since.  A session remembers one bit of this (`Session.Dated.decodeAnew`), which is set at any
exec, on either side of a system call, and cleared by some answers of the decoder only.

So a window is given to `resync` if and only if the image is current when the window is read, and to
`restart` otherwise (`Session.resync_iff_current`).  The decoder that is given the window is the one
that the window before has left (`lastDecoder`).  This is said of every window of every run, also of
a run that fails later on.
-/

namespace BranchWatch

namespace Act

variable {δ : Type}

/-- The process was found to run another program. -/
def isExec : Act δ → Bool
  | waited (.ok (.stopped _ (.exec _))) => true
  | _ => false

/-- Done with a window. -/
def isOfWindow : Act δ → Bool
  | readWindow _ | decoded _ _ => true
  | _ => false

/-- Whether the image is current behind an act, from whether it was so before. -/
def renews (a : Act δ) (current : Bool) : Bool :=
  match a with
  | decoded true o => current || o.isSettled
  | a => current && !a.isExec

theorem renews_of_opening?_eq_none {a : Act δ} (h : a.opening? = none) (current : Bool) :
    a.renews current = (current && !a.isExec) := by
  cases a with
  | decoded anew o => cases h
  | _ => rfl

end Act

/-- The code that the decoder saw last is the code that the process runs. -/
def hasCurrentImage {δ : Type} : List (Act δ) → Bool
  | [] => false
  | a :: acts => a.renews (hasCurrentImage acts)

/-- The decoder that the latest window has left, or the first one. -/
def lastDecoder {δ : Type} (capacity : Nat) (first : δ) : List (Act δ) → δ
  | [] => first
  | .decoded _ o :: _ => o.left capacity
  | _ :: acts => lastDecoder capacity first acts

section

variable {δ : Type} {capacity : Nat} {first : δ} {acts between earlier later : List (Act δ)}

theorem lastDecoder_cons {a : Act δ} (h : a.opening? = none) :
    lastDecoder capacity first (a :: acts) = lastDecoder capacity first acts := by
  cases a with
  | decoded anew o => cases h
  | _ => rfl

theorem lastDecoder_noted (ns : List Notice) :
    lastDecoder capacity first (ns.map .noted ++ acts) = lastDecoder capacity first acts := by
  induction ns with
  | nil => rfl
  | cons n ns ih => exact ih

/-- The image is current if a restart went through and no exec was told since. -/
theorem hasCurrentImage_iff : hasCurrentImage acts = true ↔
    ∃ between o before, acts = between ++ .decoded true o :: before ∧ o.isSettled = true ∧
      ∀ a ∈ between, a.isExec = false := by
  constructor
  · intro h
    induction acts with
    | nil => cases h
    | cons a acts ih =>
        -- An act that does not itself make the image current leaves it as it was.
        have hkept (hcurrent : hasCurrentImage acts = true) (ha : a.isExec = false) :
            ∃ between o before, a :: acts = between ++ .decoded true o :: before ∧
              o.isSettled = true ∧ ∀ a ∈ between, a.isExec = false := by
          obtain ⟨between, o, before, rfl, ho, hbetween⟩ := ih hcurrent
          exact ⟨a :: between, o, before, rfl, ho, List.forall_mem_cons.2 ⟨ha, hbetween⟩⟩
        unfold hasCurrentImage Act.renews at h
        split at h
        next o =>
          rcases Bool.or_eq_true_iff.1 h with hcurrent | ho
          · exact hkept hcurrent rfl
          · exact ⟨[], o, acts, rfl, ho, List.forall_mem_nil _⟩
        next =>
          obtain ⟨hcurrent, ha⟩ := Bool.and_eq_true_iff.1 h
          exact hkept hcurrent (Bool.not_eq_true' _ ▸ ha)
  · rintro ⟨between, o, before, rfl, ho, hbetween⟩
    induction between with
    | nil => simp [hasCurrentImage, Act.renews, ho]
    | cons a between ih =>
        have hcurrent := ih fun b hb => hbetween b (List.mem_cons_of_mem a hb)
        have ha := hbetween a List.mem_cons_self
        rw [List.cons_append, hasCurrentImage, hcurrent]
        unfold Act.renews
        split
        · rfl
        · simp [ha]

theorem hasCurrentImage_cons {a : Act δ} (h : a.opening? = none) :
    hasCurrentImage (a :: acts) = (hasCurrentImage acts && !a.isExec) :=
  Act.renews_of_opening?_eq_none h _

/-- What is said does not count. -/
theorem hasCurrentImage_noted (ns : List Notice) :
    hasCurrentImage (ns.map .noted ++ acts) = hasCurrentImage acts := by
  induction ns with
  | nil => rfl
  | cons n ns ih =>
      rw [List.map_cons, List.cons_append, hasCurrentImage_cons rfl, ih]
      exact Bool.and_true _

/-- Without the decoder an image does not become current. -/
theorem hasCurrentImage_append_eq_false (hbetween : ∀ a ∈ between, a.opening? = none)
    (h : hasCurrentImage acts = false) : hasCurrentImage (between ++ acts) = false := by
  induction between with
  | nil => exact h
  | cons a between ih =>
      rw [List.cons_append, hasCurrentImage_cons (hbetween a List.mem_cons_self),
        ih fun b hb => hbetween b (List.mem_cons_of_mem a hb), Bool.false_and]

/-- Each window is given once to the decoder that the one before has left, which is told to restart
if and only if the image is not current when the window is read. -/
inductive Dated [TraceDecoder δ] (capacity : Nat) (first : δ) : List (Act δ) → Prop
  | nil : Dated capacity first []
  | cons {a : Act δ} {acts : List (Act δ)} (ha : a.isOfWindow = false)
      (h : Dated capacity first acts) : Dated capacity first (a :: acts)
  | window {acts : List (Act δ)} {anew : Bool} {o : Opening δ} (h : Dated capacity first acts)
      (w : TraceWindow) (ns : List Notice) (hanew : anew = !hasCurrentImage acts)
      (ho : o = if anew then TraceDecoder.restart (lastDecoder capacity first acts) w.bytes
        else TraceDecoder.resync (lastDecoder capacity first acts) w.bytes) :
      Dated capacity first (.decoded anew o :: (ns.map .noted ++ .readWindow w :: acts))

namespace Dated

variable [TraceDecoder δ]

theorem append (h : Dated capacity first acts) (hlater : ∀ a ∈ later, a.isOfWindow = false) :
    Dated capacity first (later ++ acts) := by
  induction later with
  | nil => exact h
  | cons a later ih =>
      exact .cons (hlater a List.mem_cons_self)
        (ih fun b hb => hlater b (List.mem_cons_of_mem a hb))

theorem noted (h : Dated capacity first acts) (ns : List Notice) :
    Dated capacity first (ns.map .noted ++ acts) :=
  h.append (by simp [Act.isOfWindow])

omit [TraceDecoder δ] in
/-- Notices, then one window: anything else done with a window was done before. -/
theorem split_window {a : Act δ} {ns : List Notice} {w : TraceWindow} (ha : a.isOfWindow = true)
    (h : ns.map .noted ++ .readWindow w :: acts = later ++ a :: earlier) :
    (later = ns.map .noted ∧ a = .readWindow w ∧ acts = earlier) ∨
      ∃ later', acts = later' ++ a :: earlier := by
  rcases List.append_eq_append_iff.1 h with ⟨rest, hlater, hrest⟩ | ⟨rest, hlater, hrest⟩
  · cases rest with
    | nil =>
        obtain ⟨hw, hacts⟩ := List.cons.inj hrest
        exact .inl ⟨by simpa using hlater, hw.symm, hacts⟩
    | cons x rest => exact .inr ⟨rest, (List.cons.inj hrest).2⟩
  · cases rest with
    | nil =>
        obtain ⟨hw, hacts⟩ := List.cons.inj hrest
        exact .inl ⟨by simpa using hlater.symm, hw, hacts.symm⟩
    | cons x rest =>
        -- The act would be one of the notices.
        have hmem : a ∈ ns.map Act.noted := by
          rw [hlater, (List.cons.inj hrest).1]
          simp
        obtain ⟨n, -, rfl⟩ := List.mem_map.1 hmem
        cases ha

/-- Every window that was read was given to the decoder. -/
theorem of_readWindow {w : TraceWindow}
    (h : Dated capacity first (later ++ .readWindow w :: earlier)) :
    ∃ later' anew o, ∃ ns : List Notice, later = later' ++ .decoded anew o :: ns.map .noted ∧
      anew = !hasCurrentImage earlier ∧
      o = if anew then TraceDecoder.restart (lastDecoder capacity first earlier) w.bytes
        else TraceDecoder.resync (lastDecoder capacity first earlier) w.bytes := by
  generalize hacts : later ++ Act.readWindow w :: earlier = acts at h
  induction h generalizing later with
  | nil => simp at hacts
  | cons ha h ih =>
      cases later with
      | nil =>
          cases (List.cons.inj hacts).1
          cases ha
      | cons a later =>
          obtain ⟨rfl, hrest⟩ := List.cons.inj hacts
          obtain ⟨later', anew, o, ns, rfl, hanew, ho⟩ := ih hrest
          exact ⟨a :: later', anew, o, ns, rfl, hanew, ho⟩
  | @window acts anew o h w' ns hanew ho ih =>
      cases later with
      | nil => cases (List.cons.inj hacts).1
      | cons a later =>
          obtain ⟨rfl, hrest⟩ := List.cons.inj hacts
          rcases split_window rfl hrest.symm with ⟨rfl, hw, rfl⟩ | ⟨before, hbefore⟩
          · cases hw
            exact ⟨[], anew, o, ns, rfl, hanew, ho⟩
          · obtain ⟨later', anew', o', ns', rfl, hanew', ho'⟩ := ih hbefore.symm
            have hlater : later =
                (ns.map .noted ++ .readWindow w' :: later') ++ .decoded anew' o' :: ns'.map .noted := by
              refine List.append_cancel_right (hrest.trans ?_)
              rw [hbefore]
              simp
            exact ⟨.decoded anew o :: (ns.map .noted ++ .readWindow w' :: later'), anew', o', ns',
              congrArg (.decoded anew o :: ·) hlater, hanew', ho'⟩

/-- The decoder is given windows only, each one as it was read. -/
theorem of_decoded {anew : Bool} {o : Opening δ}
    (h : Dated capacity first (later ++ .decoded anew o :: earlier)) :
    ∃ ns : List Notice, ∃ w before, earlier = ns.map .noted ++ .readWindow w :: before ∧
      anew = !hasCurrentImage before ∧
      o = if anew then TraceDecoder.restart (lastDecoder capacity first before) w.bytes
        else TraceDecoder.resync (lastDecoder capacity first before) w.bytes := by
  generalize hacts : later ++ Act.decoded anew o :: earlier = acts at h
  induction h generalizing later with
  | nil => simp at hacts
  | cons ha h ih =>
      cases later with
      | nil =>
          cases (List.cons.inj hacts).1
          cases ha
      | cons a later => exact ih (List.cons.inj hacts).2
  | @window acts anew o h w ns hanew ho ih =>
      cases later with
      | nil =>
          cases hacts
          exact ⟨ns, w, acts, rfl, hanew, ho⟩
      | cons a later =>
          rcases split_window rfl (List.cons.inj hacts).2.symm with ⟨-, hw, -⟩ | ⟨before, hbefore⟩
          · cases hw
          · exact ih hbefore.symm

/-- A restart that came to nothing leaves the next window to another one. -/
theorem anew_of_unsettled {anew : Bool} {o o' : Opening δ}
    (h : Dated capacity first
      (later ++ .decoded anew o' :: (between ++ .decoded true o :: earlier)))
    (ho : o.isSettled = false) (hbetween : ∀ a ∈ between, a.opening? = none) : anew = true := by
  obtain ⟨ns, w, before, hns, hanew, -⟩ := h.of_decoded
  -- The restart itself was due because the image was not current, and it has not made it so.
  have hagain := h
  rw [← List.cons_append, ← List.append_assoc] at hagain
  obtain ⟨ns', w', before', hearlier, hold, -⟩ := hagain.of_decoded
  have hcurrent : hasCurrentImage (.decoded true o :: earlier) = false := by
    have hunread : hasCurrentImage earlier = hasCurrentImage before' := by
      rw [hearlier, hasCurrentImage_noted, hasCurrentImage_cons rfl]
      exact Bool.and_true _
    have hfalse : hasCurrentImage before' = false := by simpa using hold.symm
    rw [hasCurrentImage, hunread, hfalse]
    exact ho
  have hwindow := hasCurrentImage_append_eq_false hbetween hcurrent
  rw [hns, hasCurrentImage_noted, hasCurrentImage_cons rfl] at hwindow
  rw [hanew, ← Bool.and_true (hasCurrentImage before)]
  exact congrArg _ hwindow

end Dated

end

namespace Session

variable {κ δ : Type} [TraceDecoder δ] {capacity : Nat} {first : δ} {s s' : Session κ δ}

/-- The session remembers whether the image is current, and its decoder is the one that the latest
window has left. -/
structure Dated (capacity : Nat) (first : δ) (s : Session κ δ) : Prop where
  fits : s.buffer.capacity = s.config.windowCapacity
  room : s.config.windowCapacity = capacity
  decodeAnew : s.decodeAnew = !hasCurrentImage s.acts
  decoder : s.decoder = lastDecoder capacity first s.acts
  acts : BranchWatch.Dated capacity first s.acts

theorem start_dated (config : MonitorConfig) (capture : κ) (decoder : δ) (tracee : Tracee) :
    (start config capture decoder tracee).Dated config.windowCapacity decoder :=
  ⟨rfl, rfl, rfl, rfl, .nil⟩

/-- No answer about a process that ends is about a window. -/
theorem lasting_dated :
    RunStep.Lasting fun s : Session κ δ => BranchWatch.Dated capacity first s.acts :=
  ⟨fun _ _ h => h.cons rfl, fun _ _ _ h => h.cons rfl⟩

namespace Dated

/-- Neither a window nor an exec is met. -/
theorem did {a : Act δ} (h : s.Dated capacity first) (hwindow : a.isOfWindow = false)
    (hopening : a.opening? = none) (hexec : a.isExec = false) :
    (s.did a).Dated capacity first := by
  refine ⟨h.fits, h.room, ?_, ?_, h.acts.cons hwindow⟩
  · rw [did_acts, hasCurrentImage_cons hopening, hexec]
    exact h.decodeAnew.trans (by simp)
  · rw [did_acts, lastDecoder_cons hopening]
    exact h.decoder

/-- With an exec the image is not current any more. -/
theorem exec (h : s.Dated capacity first) (pid former : Int) :
    { (s.did (.waited (.ok (.stopped pid (.exec former))))).did (.noted .calledExec) with
      decodeAnew := true : Session κ δ }.Dated capacity first := by
  refine ⟨h.fits, h.room, ?_, h.decoder, .cons rfl (h.acts.cons rfl)⟩
  show true = !(hasCurrentImage s.acts && false && true)
  rw [Bool.and_false]
  rfl

variable [TraceCapture κ]

theorem enabled (h : s.Dated capacity first) : s.enabled.Dated capacity first := by
  have h' : (s.did (.enabled (TraceCapture.enable s.capture).1)).Dated capacity first :=
    h.did rfl rfl rfl
  exact ⟨h'.fits, h'.room, h'.decodeAnew, h'.decoder, h'.acts⟩

theorem disabled (h : s.Dated capacity first) : s.disabled.Dated capacity first := by
  have h' : (s.did (.disabled (TraceCapture.disable s.capture).1)).Dated capacity first :=
    h.did rfl rfl rfl
  exact ⟨h'.fits, h'.room, h'.decodeAnew, h'.decoder, h'.acts⟩

/-- A window is closed: the decoder is told what the session remembers, and the session remembers
what the decoder says. -/
theorem closed {counted : Nat} {reason : Option Reason} (h : s.Dated capacity first)
    (hclosed : RunStep.Closed s counted reason s') : s'.Dated capacity first := by
  obtain ⟨before, between, behind, hacts⟩ := hclosed.acts
  have hread : hasCurrentImage (before.map .noted ++ s.acts) = hasCurrentImage s.acts :=
    hasCurrentImage_noted before
  refine ⟨?_, ?_, ?_, ?_, ?_⟩
  · rw [hclosed.capacity, hclosed.config, h.fits]
  · rw [hclosed.config, h.room]
  · rw [hclosed.decodeAnew, hacts, hasCurrentImage_noted, hasCurrentImage, hasCurrentImage_noted,
      hasCurrentImage_cons rfl, hread, h.decodeAnew]
    cases hasCurrentImage s.acts <;> rfl
  · rw [hclosed.decoder, hacts, lastDecoder_noted, h.room]
    rfl
  · have hanew : s.decodeAnew = !hasCurrentImage (before.map .noted ++ s.acts) := by
      rw [hread, h.decodeAnew]
    have hwindow : BranchWatch.Dated capacity first (.decoded s.decodeAnew s.opening ::
        (between.map .noted ++ .readWindow (TraceCapture.window s.capture) ::
          (before.map .noted ++ s.acts))) := by
      refine .window (h.acts.noted before) _ between hanew ?_
      rw [lastDecoder_noted, ← h.decoder]
      rfl
    rw [hacts]
    exact hwindow.noted behind

/-- The process was found at the entry of a system call. -/
theorem entered (h : s.Dated capacity first) (pid : Int) :
    (s.did (.waited (.ok (.stopped pid .syscall)))).disabled.Dated capacity first := by
  have hstop : (s.did (.waited (.ok (.stopped pid .syscall)))).Dated capacity first :=
    h.did rfl rfl rfl
  exact hstop.disabled

theorem turn {a : WaitAnswer} {stretch stretch' : Stretch} {signal : Option Signal}
    (h : s.Dated capacity first) (hturn : RunStep.Turn a stretch s stretch' signal s') :
    s'.Dated capacity first := by
  cases hturn with
  | @entry _ _ pid ha hdisable hentry =>
      exact (h.entered pid).closed (RunStep.atEntry_ok (h.entered pid).fits hentry)
  | @exit _ _ pid hstretch ha henable =>
      have hstop : (s.did (.waited (.ok (.stopped pid .syscall)))).Dated capacity first :=
        h.did rfl rfl rfl
      exact hstop.enabled
  | signal ha => exact (h.did rfl rfl rfl).did rfl rfl rfl
  | exec ha => exact h.exec _ _
  | @other _ _ _ event ha hsyscall hsignal hexec =>
      refine h.did rfl rfl ?_
      cases event with
      | exec former => exact absurd rfl (hexec former)
      | _ => rfl

omit [TraceCapture κ] in
/-- The process is killed because of a suspicious window. -/
theorem condemn {stop : StopAnswers} {waits : List WaitAnswer} {reason : Reason}
    (h : s.Dated capacity first) :
    BranchWatch.Dated capacity first
      (RunStep.behind (RunStep.condemn stop waits reason s)).acts := by
  have hover := lasting_dated.terminate stop waits s (h.acts.cons rfl)
  unfold RunStep.condemn
  rw [RunStep.bind_apply]
  cases hterminate : RunStep.terminate stop waits s with
  | ok status m =>
      rw [hterminate] at hover
      exact hover
  | error e m =>
      rw [hterminate] at hover
      exact hover

theorem ends {stretch : Stretch} {waits : List WaitAnswer}
    {result : EStateM.Result MonitorError (Session κ δ) (Option ExitStatus)}
    (h : s.Dated capacity first) (hends : RunStep.Ends stretch waits s result) :
    BranchWatch.Dated capacity first (RunStep.behind result).acts := by
  have leaving {stretch : Stretch} {last : RunStep κ δ (Option ExitStatus)} {m : Session κ δ}
      (hlast : BranchWatch.Dated capacity first (RunStep.behind (last m)).acts) :
      BranchWatch.Dated capacity first (RunStep.behind (RunStep.leaving stretch last m)).acts := by
    by_cases hstretch : stretch = .user
    · subst hstretch
      rw [RunStep.behind_leaving_user]
      exact hlast.cons rfl
    · rw [RunStep.leaving_of_ne hstretch]
      exact hlast
  cases hends with
  | nobody => exact leaving h.acts
  | unwaited ha he => exact leaving ((RunStep.behind_lost _ s).symm ▸ h.acts)
  | died ha => exact leaving (lasting_dated.reap _ _ (h.acts.cons rfl))
  | @untold _ _ _ _ e ha =>
      exact leaving ((RunStep.behind_lost e (s.did _)).symm ▸ h.acts.cons rfl)
  | exited ha => exact leaving (h.acts.cons rfl)
  | undisabled ha hdisable => exact .cons rfl (h.acts.cons rfl)
  | @failed _ _ _ _ pid _ ha hdisable hentry =>
      rcases RunStep.atEntry_error (h.entered pid).fits hentry with ⟨-, rfl, -⟩ | ⟨-, hclosed, -⟩
      · exact (h.entered pid).acts
      · exact ((h.entered pid).closed hclosed).acts
  | @condemned _ _ _ _ pid _ ha hdisable hentry =>
      exact ((h.entered pid).closed (RunStep.atEntry_ok (h.entered pid).fits hentry)).condemn
  | unenabled hstretch ha henable => exact .cons rfl (h.acts.cons rfl)
  | unresumed hturn hresume =>
      exact leaving (lasting_dated.unresumed _ _ _ ((h.turn hturn).acts.cons rfl))

theorem resuming (h : s.Dated capacity first) (stop : StopAnswers) (waits : List WaitAnswer) :
    BranchWatch.Dated capacity first (RunStep.behind (RunStep.resuming stop .user none waits
      (RunStep.follow .user waits) s)).acts := by
  rw [RunStep.resuming_eq]
  cases stop.resume with
  | none =>
      have hrunning : (s.did (.resumed .user none none)).Dated capacity first := h.did rfl rfl rfl
      exact (RunStep.runs_follow .user waits _).conclude (P := fun _ s => s.Dated capacity first)
        (fun hs hturn => (hs.turn hturn).did rfl rfl rfl) (fun hs hends => hs.ends hends) hrunning
  | some e =>
      show BranchWatch.Dated capacity first (RunStep.behind (RunStep.leaving .user _ _)).acts
      rw [RunStep.behind_leaving_user]
      exact .cons rfl (lasting_dated.unresumed e waits _ (h.acts.cons rfl))

theorem monitor (h : s.Dated capacity first) (tracee : Tracee) :
    BranchWatch.Dated capacity first (RunStep.behind (RunStep.monitor tracee s)).acts := by
  rw [RunStep.monitor_eq]
  rcases (TraceCapture.enable s.capture).1 with e | ⟨⟨⟩⟩ <;> simp only
  · exact h.enabled.acts
  · have hover := h.enabled.resuming tracee.first tracee.waits
    cases hresult : RunStep.resuming tracee.first .user none tracee.waits
        (RunStep.follow .user tracee.waits) s.enabled with
    | error e m =>
        rw [hresult] at hover
        exact hover
    | ok status m =>
        rw [hresult] at hover
        exact hover.cons rfl

end Dated

variable [TraceCapture κ] {config : MonitorConfig} {capture : κ} {decoder : δ} {tracee : Tracee}
  {answer : Except MonitorError Report}

theorem acts_dated (hmode : config.diagnostics.traceTimeOnly = false)
    (h : Session.run config capture decoder tracee = (answer, s)) :
    BranchWatch.Dated config.windowCapacity decoder s.acts := by
  have hmonitor := (start_dated config capture decoder tracee).monitor tracee
  rcases RunStep.monitor_of_run hmode h with ⟨_, -, hresult⟩ | ⟨_, -, hresult⟩ <;>
    rw [hresult] at hmonitor <;> exact hmonitor

/-- **No window is decoded with an image older than the last exec.**  Every window that is read is
given to the decoder, as the window before has left it, and only such windows are.  The decoder is
told to resync if it was told to restart at an earlier window, said then that the window was empty
or could be decoded, and no exec was told between that and the reading; else it is told to restart.
A restart that fails otherwise is tried again at the next window. -/
theorem resync_iff_current (hmode : config.diagnostics.traceTimeOnly = false)
    (h : Session.run config capture decoder tracee = (answer, s)) :
    (∀ later earlier w, s.acts = later ++ .readWindow w :: earlier →
      ∃ later' anew o, ∃ ns : List Notice, later = later' ++ .decoded anew o :: ns.map .noted ∧
        o = (if anew
          then TraceDecoder.restart (lastDecoder config.windowCapacity decoder earlier) w.bytes
          else TraceDecoder.resync (lastDecoder config.windowCapacity decoder earlier) w.bytes) ∧
        (anew = false ↔ ∃ between o' before, earlier = between ++ .decoded true o' :: before ∧
          o'.isSettled = true ∧ ∀ a ∈ between, a.isExec = false)) ∧
      (∀ later earlier anew o, s.acts = later ++ .decoded anew o :: earlier →
        ∃ ns : List Notice, ∃ w before, earlier = ns.map .noted ++ .readWindow w :: before ∧
          o = if anew
            then TraceDecoder.restart (lastDecoder config.windowCapacity decoder before) w.bytes
            else TraceDecoder.resync (lastDecoder config.windowCapacity decoder before) w.bytes) ∧
      (∀ later between earlier anew o o',
        s.acts = later ++ .decoded anew o' :: (between ++ .decoded true o :: earlier) →
          o.isSettled = false → (∀ a ∈ between, a.opening? = none) → anew = true) := by
  have hacts := acts_dated hmode h
  refine ⟨?_, ?_, ?_⟩
  · intro later earlier w heq
    obtain ⟨later', anew, o, ns, hlater, hanew, ho⟩ := (heq ▸ hacts).of_readWindow
    refine ⟨later', anew, o, ns, hlater, ho, ?_⟩
    rw [← hasCurrentImage_iff, hanew]
    simp
  · intro later earlier anew o heq
    obtain ⟨ns, w, before, hearlier, -, ho⟩ := (heq ▸ hacts).of_decoded
    exact ⟨ns, w, before, hearlier, ho⟩
  · intro later between earlier anew o o' heq ho hbetween
    exact (heq ▸ hacts).anew_of_unsettled ho hbetween

/-- The decoder is told to restart at the first window and at the first one behind an exec. -/
theorem resync_iff_current_exec :
    let run := Session.run {} (ScriptedCapture.constant [0]) ScriptedDecoder.consistent
      (.ofScript 7 true none [.syscall .getpid, .exec 1 0])
    ({} : MonitorConfig).diagnostics.traceTimeOnly = false ∧ run = (run.1, run.2) ∧
      (run.2.acts.filterMap fun
        | .decoded anew _ => some anew
        | _ => none) = [false, true, false, true] ∧
      run.2.acts.countP (·.isExec) = 1 ∧
      ∀ later earlier w, run.2.acts = later ++ .readWindow w :: earlier →
        ∃ later' anew o, ∃ ns : List Notice, later = later' ++ .decoded anew o :: ns.map .noted ∧
          (anew = false ↔ ∃ between o' before, earlier = between ++ .decoded true o' :: before ∧
            o'.isSettled = true ∧ ∀ a ∈ between, a.isExec = false) := by
  intro run
  have hmode : ({} : MonitorConfig).diagnostics.traceTimeOnly = false := rfl
  have hrun : run = (run.1, run.2) := (Prod.eta run).symm
  obtain ⟨hread, -, -⟩ := resync_iff_current hmode hrun
  refine ⟨hmode, hrun, by decide +kernel, by decide +kernel, ?_⟩
  intro later earlier w heq
  obtain ⟨later', anew, o, ns, hlater, -, hanew⟩ := hread later earlier w heq
  exact ⟨later', anew, o, ns, hlater, hanew⟩

end Session

end BranchWatch
