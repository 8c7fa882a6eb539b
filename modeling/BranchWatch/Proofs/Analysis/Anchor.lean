import BranchWatch.Proofs.Analysis.Matching
import Mathlib.Data.List.TakeWhile

/-!
# What comes before the last far transfer

The strategy with an anchor looks at one part of the window only: what comes before the last far
transfer, or all of it if there is none (`BeforeLastFar`).  In this part the later one of the last
call and the last return decides (`Unfollowed`), and without either nothing is decided
(`Analyzer.judge_anchored`).

The scan goes backwards, so its first call or return is the last one of the part.  The proofs
follow the part as it grows at its end, where one more instruction is all that the scan meets before
it goes on as it did.

Nothing is said here about an empty window, which every strategy rejects for a reason of its own.
-/

namespace BranchWatch

/-- A part of a window: what comes before its last far transfer, or all of it if there is none. -/
inductive BeforeLastFar (window : List InstructionClass) : List InstructionClass → Prop where
  | whole (hnone : .farTransfer ∉ window) : BeforeLastFar window window
  | cut {part after : List InstructionClass} (hwindow : window = part ++ .farTransfer :: after)
      (hlast : .farTransfer ∉ after) : BeforeLastFar window part

/-- Some instruction of the class `c` is not followed by any of the class `other`. -/
def Unfollowed (c other : InstructionClass) (part : List InstructionClass) : Prop :=
  ∃ front back, part = front ++ c :: back ∧ other ∉ back

variable {window part after front : List InstructionClass} {c other : InstructionClass}

/-! ## The later one of the last call and the last return -/

theorem not_unfollowed_nil : ¬Unfollowed c other [] := by
  rintro ⟨front, back, hpart, -⟩
  simp at hpart

/-- One more instruction is such an instruction itself, or it is not of the other class. -/
theorem unfollowed_concat (c other x : InstructionClass) (part : List InstructionClass) :
    Unfollowed c other (part ++ [x]) ↔ x = c ∨ (x ≠ other ∧ Unfollowed c other part) := by
  constructor
  · rintro ⟨front, back, hpart, hback⟩
    -- Either nothing comes behind the instruction found, or the new one comes last there.
    cases back using List.reverseRecOn with
    | nil =>
        left
        have hlast := congrArg List.getLast? hpart
        simpa using hlast
    | append_singleton back y =>
        right
        have hsplit : part ++ [x] = (front ++ c :: back) ++ [y] := by simpa using hpart
        obtain ⟨hpart', hxy⟩ := List.append_inj' hsplit rfl
        obtain rfl : x = y := by simpa using hxy
        simp only [List.mem_append, List.mem_singleton, not_or] at hback
        exact ⟨Ne.symm hback.2, front, back, hpart', hback.1⟩
  · rintro (rfl | ⟨hx, front, back, rfl, hback⟩)
    · exact ⟨part, [], rfl, by simp⟩
    · refine ⟨front, back ++ [x], by simp, ?_⟩
      simp [hback, Ne.symm hx]

theorem Unfollowed.mem (h : Unfollowed c other part) : c ∈ part := by
  obtain ⟨front, back, rfl, -⟩ := h
  simp

/-- The two cannot both come last. -/
theorem Unfollowed.not_swap (hne : c ≠ other) (h : Unfollowed c other part) :
    ¬Unfollowed other c part := by
  induction part using List.reverseRecOn with
  | nil => exact absurd h not_unfollowed_nil
  | append_singleton part x ih =>
      rw [unfollowed_concat] at h ⊢
      rintro (rfl | ⟨hx, hother⟩)
      · rcases h with h | ⟨h, -⟩
        · exact hne h.symm
        · exact h rfl
      · rcases h with h | ⟨-, h⟩
        · exact hx h
        · exact ih h hother

namespace Analyzer

/-! ## The scan of the part -/

theorem judgeAnchored_of_not_isCounted (hcounted : c.isCounted = false)
    (rest : List InstructionClass) : judgeAnchored (c :: rest) = judgeAnchored rest := by
  cases c <;> first | rfl | cases hcounted

theorem judgeAnchored_filter (reversed : List InstructionClass) :
    judgeAnchored (reversed.filter (·.isCounted)) = judgeAnchored reversed := by
  induction reversed with
  | nil => rfl
  | cons c rest ih =>
      cases hcounted : c.isCounted with
      | true =>
          rw [List.filter_cons_of_pos hcounted]
          cases c <;> first | rfl | cases hcounted
      | false =>
          rw [List.filter_cons_of_neg (by simp [hcounted]), ih,
            judgeAnchored_of_not_isCounted hcounted]

/-- Behind the first call or return nothing is looked at. -/
theorem judgeAnchored_append {reversed : List InstructionClass}
    (hcounted : ∃ c ∈ reversed, c.isCounted) (more : List InstructionClass) :
    judgeAnchored (reversed ++ more) = judgeAnchored reversed := by
  induction reversed with
  | nil => simp at hcounted
  | cons c rest ih =>
      rw [List.cons_append]
      cases hc : c.isCounted with
      | true => cases c <;> first | rfl | cases hc
      | false =>
          have hrest : ∃ c ∈ rest, c.isCounted := by simpa [hc] using hcounted
          rw [judgeAnchored_of_not_isCounted hc, judgeAnchored_of_not_isCounted hc, ih hrest]

/-- A call or a return at the end of the part decides; other instructions there do not count. -/
theorem judgeAnchored_concat (part : List InstructionClass) (c : InstructionClass) :
    judgeAnchored (part ++ [c]).reverse =
      match c with
      | .nearCall => .consistent
      | .nearReturn => .suspicious .returnIntoFarTransfer
      | _ => judgeAnchored part.reverse := by
  rw [List.reverse_concat]
  cases c <;> rfl

/-- What the scan of a part finds. -/
theorem judgeAnchored_reverse (part : List InstructionClass) :
    (judgeAnchored part.reverse = .consistent ∧ Unfollowed .nearCall .nearReturn part) ∨
      (judgeAnchored part.reverse = .suspicious .returnIntoFarTransfer ∧
        Unfollowed .nearReturn .nearCall part) ∨
      (judgeAnchored part.reverse = .suspicious .undecided ∧
        .nearCall ∉ part ∧ .nearReturn ∉ part) := by
  induction part using List.reverseRecOn with
  | nil => simp [judgeAnchored]
  | append_singleton part c ih =>
      rw [judgeAnchored_concat, unfollowed_concat, unfollowed_concat]
      cases c with
      | nearCall => simp
      | nearReturn => simp
      | _ => simpa using ih

/-! ## The anchor -/

theorem beforeAnchor_of_not_mem {reversed : List InstructionClass}
    (hnone : .farTransfer ∉ reversed) : beforeAnchor reversed = reversed := by
  have hdrop : reversed.dropWhile (· ≠ .farTransfer) = [] := by
    rw [List.dropWhile_eq_nil_iff]
    intro c hc
    simpa using ne_of_mem_of_not_mem hc hnone
  rw [beforeAnchor, hdrop]

/-- Seen backwards, the last far transfer comes first, and the earlier ones are passed over. -/
theorem beforeAnchor_append {tail : List InstructionClass} (hnone : .farTransfer ∉ tail)
    (before : List InstructionClass) :
    beforeAnchor (tail ++ .farTransfer :: before) = before := by
  have hdrop : (tail ++ .farTransfer :: before).dropWhile (· ≠ .farTransfer) =
      .farTransfer :: before := by
    rw [List.dropWhile_append_of_pos]
    · simp
    · intro c hc
      simpa using ne_of_mem_of_not_mem hc hnone
  rw [beforeAnchor, hdrop]

end Analyzer

/-- The anchor is where the scan finds it. -/
theorem BeforeLastFar.beforeAnchor_reverse (hpart : BeforeLastFar window part) :
    Analyzer.beforeAnchor window.reverse = part.reverse := by
  cases hpart with
  | whole hnone => exact Analyzer.beforeAnchor_of_not_mem (by simpa using hnone)
  | cut hwindow hlast =>
      rw [hwindow, List.reverse_append, List.reverse_cons, List.append_assoc]
      exact Analyzer.beforeAnchor_append (by simpa using hlast) _

/-- A window with a far transfer is cut at the last one. -/
theorem exists_lastFar (hfar : .farTransfer ∈ window) :
    ∃ part after, window = part ++ .farTransfer :: after ∧ .farTransfer ∉ after := by
  obtain ⟨tail, before, hsplit, hlast⟩ :=
    List.eq_append_cons_of_mem (List.mem_reverse.mpr hfar)
  refine ⟨before.reverse, tail.reverse, ?_, by simpa using hlast⟩
  rw [← List.reverse_reverse window, hsplit]
  simp

/-- Every window has exactly one such part. -/
theorem exists_beforeLastFar (window : List InstructionClass) :
    ∃ part, ∀ part', BeforeLastFar window part' ↔ part' = part := by
  have hpart : ∃ part, BeforeLastFar window part := by
    by_cases hfar : .farTransfer ∈ window
    · obtain ⟨part, after, hwindow, hlast⟩ := exists_lastFar hfar
      exact ⟨part, .cut hwindow hlast⟩
    · exact ⟨window, .whole hfar⟩
  obtain ⟨part, hpart⟩ := hpart
  refine ⟨part, fun part' => ⟨fun hpart' => ?_, fun heq => heq ▸ hpart⟩⟩
  rw [← List.reverse_inj, ← hpart'.beforeAnchor_reverse, ← hpart.beforeAnchor_reverse]

namespace Analyzer

theorem judge_farCallAnchor (balance : Int64) (hwindow : window ≠ [])
    (hpart : BeforeLastFar window part) :
    judge ⟨.farCallAnchor, balance⟩ window = judgeAnchored part.reverse := by
  simp [judge, hwindow, hpart.beforeAnchor_reverse]

/-- With a far transfer, only the calls and returns in front of the last one matter. -/
theorem judge_cut (balance : Int64) (part : List InstructionClass)
    (hlast : .farTransfer ∉ after) :
    judge ⟨.farCallAnchor, balance⟩ (part ++ .farTransfer :: after) =
      judgeAnchored (part.filter (·.isCounted)).reverse := by
  rw [judge_farCallAnchor balance (by simp) (.cut rfl hlast), ← judgeAnchored_filter,
    List.filter_reverse]

/-- Nothing in front of a call or a return of that part matters. -/
theorem judge_prepend (balance : Int64) (hcounted : ∃ c ∈ part, c.isCounted)
    (hlast : .farTransfer ∉ after) (front : List InstructionClass) :
    judge ⟨.farCallAnchor, balance⟩ (front ++ (part ++ .farTransfer :: after)) =
      judge ⟨.farCallAnchor, balance⟩ (part ++ .farTransfer :: after) := by
  have hreversed : ∃ c ∈ part.reverse, c.isCounted := by simpa using hcounted
  rw [← List.append_assoc, judge_farCallAnchor balance (by simp) (.cut rfl hlast),
    judge_farCallAnchor balance (by simp) (.cut rfl hlast), List.reverse_append,
    judgeAnchored_append hreversed]

/-- **What the strategy with an anchor decides.**  A window that is not empty has exactly one part
that is looked at: what comes before its last far transfer, or all of it.  The window is accepted if
and only if a call of the part has no return behind it there.  It is rejected for a return into the
far transfer if and only if a return of the part has no call behind it there, and left undecided if
and only if the part has neither calls nor returns.  Exactly one of the three is so.

Hence the balance does not matter.  If there is a far transfer, then neither does what comes after
the last one, nor what comes in front of the window once the part has a call or a return, nor does
any instruction of the part that is neither. -/
theorem judge_anchored (hwindow : window ≠ []) :
    ∃ part, (∀ part', BeforeLastFar window part' ↔ part' = part) ∧ ∀ balance,
      let verdict := judge ⟨.farCallAnchor, balance⟩ window
      let called := Unfollowed .nearCall .nearReturn part
      let returned := Unfollowed .nearReturn .nearCall part
      let neither := .nearCall ∉ part ∧ .nearReturn ∉ part
      (verdict = .consistent ↔ called) ∧
      (verdict = .suspicious .returnIntoFarTransfer ↔ returned) ∧
      (verdict = .suspicious .undecided ↔ neither) ∧
      ((called ∧ ¬returned ∧ ¬neither) ∨ (¬called ∧ returned ∧ ¬neither) ∨
        (¬called ∧ ¬returned ∧ neither)) ∧
      (∀ balance', judge ⟨.farCallAnchor, balance'⟩ window = verdict) ∧
      (.farTransfer ∈ window →
        ∃ after, window = part ++ .farTransfer :: after ∧ .farTransfer ∉ after ∧
          (∀ after', .farTransfer ∉ after' →
            judge ⟨.farCallAnchor, balance⟩ (part ++ .farTransfer :: after') = verdict) ∧
          ((∃ c ∈ part, c.isCounted) → ∀ front,
            judge ⟨.farCallAnchor, balance⟩ (front ++ window) = verdict) ∧
          (∀ part', part'.filter (·.isCounted) = part.filter (·.isCounted) →
            judge ⟨.farCallAnchor, balance⟩ (part' ++ .farTransfer :: after) = verdict)) := by
  obtain ⟨part, hunique⟩ := exists_beforeLastFar window
  have hpart : BeforeLastFar window part := (hunique part).mpr rfl
  refine ⟨part, hunique, fun balance => ?_⟩
  intro verdict called returned neither
  have hverdict (b : Int64) : judge ⟨.farCallAnchor, b⟩ window = judgeAnchored part.reverse :=
    judge_farCallAnchor b hwindow hpart
  have hscan : verdict = judgeAnchored part.reverse := hverdict balance
  -- No two of the three conditions go together, so what the scan has found decides all of them.
  have hreturned : called → ¬returned := fun h => h.not_swap (by decide)
  have hcalled : returned → ¬called := fun h => h.not_swap (by decide)
  have hcall : called → ¬neither := fun h hneither => hneither.1 h.mem
  have hreturn : returned → ¬neither := fun h hneither => hneither.2 h.mem
  have hdecided : (verdict = .consistent ↔ called) ∧
      (verdict = .suspicious .returnIntoFarTransfer ↔ returned) ∧
      (verdict = .suspicious .undecided ↔ neither) ∧
      ((called ∧ ¬returned ∧ ¬neither) ∨ (¬called ∧ returned ∧ ¬neither) ∨
        (¬called ∧ ¬returned ∧ neither)) := by
    rw [hscan]
    rcases judgeAnchored_reverse part with ⟨hfound, h⟩ | ⟨hfound, h⟩ | ⟨hfound, h⟩
    · have hc : called := h
      simp [hfound, hc, hreturned hc, hcall hc]
    · have hr : returned := h
      simp [hfound, hr, hcalled hr, hreturn hr]
    · have hn : neither := h
      have hnc : ¬called := fun hc => hcall hc hn
      have hnr : ¬returned := fun hr => hreturn hr hn
      simp [hfound, hn, hnc, hnr]
  obtain ⟨hconsistent, hinto, hundecided, hone⟩ := hdecided
  refine ⟨hconsistent, hinto, hundecided, hone, ?_, ?_⟩
  · intro balance'
    rw [hverdict balance', hscan]
  · intro hfar
    obtain ⟨part', after, hsplit, hlast⟩ := exists_lastFar hfar
    obtain rfl : part' = part := (hunique part').mp (.cut hsplit hlast)
    refine ⟨after, hsplit, hlast, ?_, ?_, ?_⟩
    · intro after' hlast'
      rw [judge_farCallAnchor balance (by simp) (.cut rfl hlast'), hscan]
    · intro hcounted front
      simp only [verdict, hsplit]
      exact judge_prepend balance hcounted hlast front
    · intro changed hsame
      simp only [verdict, hsplit]
      rw [judge_cut balance changed hlast, judge_cut balance part' hlast, hsame]

/-- The last far transfer comes behind a return, and that one behind a call; the call behind it is
not looked at. -/
theorem judge_anchored_of_return :
    let window : List InstructionClass :=
      [.farTransfer, .nearCall, .nearReturn, .ordinary, .farTransfer, .nearCall]
    window ≠ [] ∧
      ∀ balance, judge ⟨.farCallAnchor, balance⟩ window = .suspicious .returnIntoFarTransfer := by
  intro window
  have hwindow : window ≠ [] := by decide
  obtain ⟨part, hpart, hjudge⟩ := judge_anchored hwindow
  have hsplit : window =
      [.farTransfer, .nearCall, .nearReturn, .ordinary] ++ .farTransfer :: [.nearCall] := rfl
  obtain rfl := (hpart _).mp (.cut hsplit (by decide))
  refine ⟨hwindow, fun balance => ?_⟩
  obtain ⟨-, hreturned, -⟩ := hjudge balance
  exact hreturned.mpr ⟨[.farTransfer, .nearCall], [.ordinary], rfl, by decide⟩

end Analyzer

end BranchWatch
