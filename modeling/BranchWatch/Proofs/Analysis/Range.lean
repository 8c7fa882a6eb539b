import BranchWatch.Monitor.Config
import BranchWatch.Proofs.Analysis.Matching

/-!
# The range of the balance

The balance starts with a signed 64-bit word and is kept in one.  `Analyzer.judge` takes it in whole
numbers; `Analyzer.judgeInWord` takes it in words and gives up where a sum is none.  The two agree as
long as every value of the balance is a word, and otherwise the second one has no verdict
(`Analyzer.judgeInWord_eq`).

How far the balance can move is limited by the number of instructions that a window may have.
`Analyzer.HasRoom` says for each strategy what the balance has to start with, and
`MonitorConfig.inWord_iff_hasRoom` that this is not only enough but also needed: windows with nothing
but returns, or nothing but calls, come as far as the limit.

The settings are checked without a look at the balance, so some are accepted that have no such room
(`MonitorConfig.not_inWord_of_validate`).
-/

namespace BranchWatch

/-- The values of a signed 64-bit word. -/
def InWord (n : Int) : Prop := -2 ^ 63 ≤ n ∧ n < 2 ^ 63

instance (n : Int) : Decidable (InWord n) := inferInstanceAs (Decidable (_ ∧ _))

theorem inWord_toInt (n : Int64) : InWord n.toInt := ⟨n.le_toInt, n.toInt_lt⟩

/-- The word of a given value, if there is one. -/
def word? (n : Int) : Option Int64 := if InWord n then some (.ofInt n) else none

theorem word?_of_inWord {n : Int} (h : InWord n) : ∃ w, word? n = some w ∧ w.toInt = n :=
  ⟨.ofInt n, if_pos h, Int64.toInt_ofInt_of_le h.1 h.2⟩

theorem word?_eq_none {n : Int} (h : ¬InWord n) : word? n = none := if_neg h

namespace Analyzer

variable {window : List InstructionClass} {balance : Int}

/-! ## The balance in words -/

/-- The balance after the instructions of a scan, which stops at zero or does not. -/
def balanceAfter (stopsAtZero : Bool) (balance : Int) (reversed : List InstructionClass) : Int :=
  if stopsAtZero then balanceUntilZero balance reversed else finalBalance balance reversed

theorem balanceAfter_nil (stopsAtZero : Bool) (balance : Int) :
    balanceAfter stopsAtZero balance [] = balance := by
  cases stopsAtZero <;> rfl

theorem balanceAfter_cons (stopsAtZero : Bool) (balance : Int) (c : InstructionClass)
    (rest : List InstructionClass) :
    balanceAfter stopsAtZero balance (c :: rest) =
      if stopsAtZero ∧ c.weight ≠ 0 ∧ balance + c.weight = 0 then 0
      else balanceAfter stopsAtZero (balance + c.weight) rest := by
  cases stopsAtZero with
  | true => simp [balanceAfter, balanceUntilZero]
  | false => simp [balanceAfter, finalBalance_cons]

/-- The same scan with the balance in a word, as long as there is one for it. -/
def scanInWord (stopsAtZero : Bool) (balance : Int64) : List InstructionClass → Option Int64
  | [] => some balance
  | c :: rest =>
    match word? (balance.toInt + c.weight) with
    | none => none
    | some next =>
      if stopsAtZero ∧ c.weight ≠ 0 ∧ next.toInt = 0 then some next
      else scanInWord stopsAtZero next rest

/-- Judges a window with the balance in a word. -/
def judgeInWord (a : Analyzer) (window : List InstructionClass) : Option Verdict :=
  if window.isEmpty then some (.suspicious .emptyWindow)
  else
    match a.strategy with
    | .fullScan => (scanInWord false a.initialBalance window.reverse).map (.ofResidual ·.toInt)
    | .earlyExit => (scanInWord true a.initialBalance window.reverse).map (.ofResidual ·.toInt)
    | .farCallAnchor => some (judgeAnchored (beforeAnchor window.reverse))

/-- A scan whose values all are words ends with the last of them. -/
theorem scanInWord_eq_some {stopsAtZero : Bool} {balance : Int64}
    {reversed : List InstructionClass}
    (hrange : ∀ n, InWord (balanceAfter stopsAtZero balance.toInt (reversed.take n))) :
    ∃ last, scanInWord stopsAtZero balance reversed = some last ∧
      last.toInt = balanceAfter stopsAtZero balance.toInt reversed := by
  induction reversed generalizing balance with
  | nil => exact ⟨balance, rfl, (balanceAfter_nil ..).symm⟩
  | cons c rest ih =>
      have hfirst : InWord (balance.toInt + c.weight) := by
        have h := hrange 1
        rw [List.take_succ_cons, List.take_zero, balanceAfter_cons, balanceAfter_nil] at h
        split at h
        · next hstop => rw [hstop.2.2]; decide
        · exact h
      obtain ⟨next, hnext, hvalue⟩ := word?_of_inWord hfirst
      simp only [scanInWord, hnext, balanceAfter_cons, hvalue]
      split
      · next hstop => exact ⟨next, rfl, by rw [hvalue, hstop.2.2]⟩
      · next hgoes =>
        have hrest (n : Nat) : InWord (balanceAfter stopsAtZero next.toInt (rest.take n)) := by
          have h := hrange (n + 1)
          rwa [List.take_succ_cons, balanceAfter_cons, if_neg hgoes, ← hvalue] at h
        obtain ⟨last, hscan, hlast⟩ := ih hrest
        exact ⟨last, hscan, by rw [hlast, hvalue]⟩

/-- A scan gives up at a value that is no word. -/
theorem scanInWord_eq_none {stopsAtZero : Bool} {balance : Int64}
    {reversed : List InstructionClass} {n : Nat}
    (hout : ¬InWord (balanceAfter stopsAtZero balance.toInt (reversed.take n))) :
    scanInWord stopsAtZero balance reversed = none := by
  induction reversed generalizing balance n with
  | nil =>
      rw [List.take_nil, balanceAfter_nil] at hout
      exact absurd (inWord_toInt balance) hout
  | cons c rest ih =>
      cases n with
      | zero =>
          rw [List.take_zero, balanceAfter_nil] at hout
          exact absurd (inWord_toInt balance) hout
      | succ n =>
          rw [List.take_succ_cons, balanceAfter_cons] at hout
          simp only [scanInWord]
          by_cases hfirst : InWord (balance.toInt + c.weight)
          · obtain ⟨next, hnext, hvalue⟩ := word?_of_inWord hfirst
            simp only [hnext, hvalue]
            split at hout
            · exact absurd (by decide) hout
            · next hgoes =>
              rw [if_neg hgoes]
              rw [← hvalue] at hout
              exact ih hout
          · simp only [word?_eq_none hfirst]

/-- The balance when `n` instructions of a window have been looked at, from its end backwards.  The
strategy with an anchor leaves it alone. -/
def balanceAt (a : Analyzer) (window : List InstructionClass) (n : Nat) : Int :=
  match a.strategy with
  | .fullScan => balanceAfter false a.initialBalance.toInt (window.reverse.take n)
  | .earlyExit => balanceAfter true a.initialBalance.toInt (window.reverse.take n)
  | .farCallAnchor => a.initialBalance.toInt

theorem balanceAt_nil (a : Analyzer) (n : Nat) : a.balanceAt [] n = a.initialBalance.toInt := by
  cases hstrategy : a.strategy <;> simp [balanceAt, hstrategy, balanceAfter_nil]

/-- In words the verdict is the same one, or some value of the balance is no word. -/
theorem judgeInWord_eq (a : Analyzer) (window : List InstructionClass) :
    ((∀ n, InWord (a.balanceAt window n)) → a.judgeInWord window = some (a.judge window)) ∧
      (∀ n, ¬InWord (a.balanceAt window n) → a.judgeInWord window = none) := by
  by_cases hwindow : window = []
  · subst hwindow
    exact ⟨fun _ => rfl, fun n hout => absurd (a.balanceAt_nil n ▸ inWord_toInt _) hout⟩
  obtain ⟨strategy, balance⟩ := a
  simp only [judgeInWord, judge, List.isEmpty_iff, if_neg hwindow]
  cases strategy with
  | fullScan | earlyExit =>
      constructor
      · intro hrange
        obtain ⟨last, hscan, hlast⟩ := scanInWord_eq_some hrange
        simp [hscan, hlast, balanceAfter]
      · intro n hout
        simp [scanInWord_eq_none hout]
  | farCallAnchor =>
      constructor
      · intro _
        rfl
      · intro n hout
        exact absurd (inWord_toInt balance) hout

theorem judgeInWord_eq_some_iff (a : Analyzer) (window : List InstructionClass) :
    a.judgeInWord window = some (a.judge window) ↔ ∀ n, InWord (a.balanceAt window n) := by
  obtain ⟨hsame, hnone⟩ := judgeInWord_eq a window
  constructor
  · intro hjudge n
    by_contra hout
    rw [hnone n hout] at hjudge
    cases hjudge
  · exact hsame

/-! ## How far the balance moves -/

/-- A scan up to the first zero does not come to the other side of zero, and on its own side it does
not move further than the instructions that it has counted. -/
theorem balanceUntilZero_bounds (balance : Int) (reversed : List InstructionClass) :
    (0 ≤ balance → balanceUntilZero balance reversed ≤ balance + reversed.length) ∧
      (balance ≤ 0 → balance - reversed.length ≤ balanceUntilZero balance reversed) ∧
      (0 < balance → 0 ≤ balanceUntilZero balance reversed) ∧
      (balance < 0 → balanceUntilZero balance reversed ≤ 0) := by
  induction reversed generalizing balance with
  | nil => simp [balanceUntilZero]; omega
  | cons c rest ih =>
      have hnext := ih (balance + c.weight)
      have hweight : -1 ≤ c.weight ∧ c.weight ≤ 1 := by cases c <;> decide
      rw [balanceUntilZero, List.length_cons]
      split <;> omega

/-- Returns alone move a balance away from zero that is not below it. -/
theorem balanceUntilZero_returns (hbalance : 0 ≤ balance) (n : Nat) :
    balanceUntilZero balance (.replicate n .nearReturn) = balance + n := by
  induction n generalizing balance with
  | zero => simp [balanceUntilZero]
  | succ n ih =>
      have hne : ¬balance + 1 = 0 := by omega
      have hnext : 0 ≤ balance + 1 := by omega
      simp [List.replicate_succ, balanceUntilZero, InstructionClass.weight, hne, ih hnext]
      omega

/-- Calls alone move a balance away from zero that is not above it. -/
theorem balanceUntilZero_calls (hbalance : balance ≤ 0) (n : Nat) :
    balanceUntilZero balance (.replicate n .nearCall) = balance - n := by
  induction n generalizing balance with
  | zero => simp [balanceUntilZero]
  | succ n ih =>
      have hne : ¬balance + -1 = 0 := by omega
      have hnext : balance + -1 ≤ 0 := by omega
      simp [List.replicate_succ, balanceUntilZero, InstructionClass.weight, hne, ih hnext]
      omega

/-- Whether the balance stays a word over every window of at most `capacity` instructions. -/
def HasRoom (a : Analyzer) (capacity : Nat) : Prop :=
  let balance := a.initialBalance.toInt
  match a.strategy with
  | .fullScan => InWord (balance - capacity) ∧ InWord (balance + capacity)
  | .earlyExit =>
    (0 ≤ balance → InWord (balance + capacity)) ∧ (balance ≤ 0 → InWord (balance - capacity))
  | .farCallAnchor => True

instance (a : Analyzer) (capacity : Nat) : Decidable (a.HasRoom capacity) :=
  match a with
  | ⟨.fullScan, _⟩ => inferInstanceAs (Decidable (InWord _ ∧ InWord _))
  | ⟨.earlyExit, _⟩ => inferInstanceAs (Decidable ((_ → InWord _) ∧ (_ → InWord _)))
  | ⟨.farCallAnchor, _⟩ => inferInstanceAs (Decidable True)

/-- There is room if and only if no window of the size moves the balance out of the words. -/
theorem hasRoom_iff (a : Analyzer) (capacity : Nat) :
    a.HasRoom capacity ↔
      ∀ window : List InstructionClass, window.length ≤ capacity →
        ∀ n, InWord (a.balanceAt window n) := by
  obtain ⟨strategy, balance⟩ := a
  obtain ⟨hlow, hhigh⟩ := inWord_toInt balance
  constructor
  · intro hroom window hwindow n
    have htaken : (window.reverse.take n).length ≤ capacity := by
      rw [List.length_take, List.length_reverse]
      omega
    cases strategy with
    | fullScan =>
        have hbounds := finalBalance_bounds balance.toInt (window.reverse.take n)
        simp only [HasRoom, InWord] at hroom
        simp only [balanceAt, balanceAfter, InWord, Bool.false_eq_true, if_false]
        omega
    | earlyExit =>
        have hbounds := balanceUntilZero_bounds balance.toInt (window.reverse.take n)
        simp only [HasRoom, InWord] at hroom
        simp only [balanceAt, balanceAfter, InWord, if_true]
        omega
    | farCallAnchor => exact inWord_toInt balance
  · intro hrange
    -- The windows that move the balance as far as it goes, in either direction.
    have hreturns := hrange (.replicate capacity .nearReturn) (by simp) capacity
    have hcalls := hrange (.replicate capacity .nearCall) (by simp) capacity
    cases strategy with
    | fullScan =>
        constructor
        · simpa [balanceAt, balanceAfter, finalBalance_eq, List.count_replicate] using hcalls
        · simpa [balanceAt, balanceAfter, finalBalance_eq, List.count_replicate] using hreturns
    | earlyExit =>
        constructor
        · intro hbalance
          simpa [balanceAt, balanceAfter, balanceUntilZero_returns hbalance] using hreturns
        · intro hbalance
          simpa [balanceAt, balanceAfter, balanceUntilZero_calls hbalance] using hcalls
    | farCallAnchor => trivial

/-- The usual settings have room. -/
example : HasRoom {} 1000000 := by decide

end Analyzer

namespace MonitorConfig

/-- The settings are accepted or rejected without a look at those of the analysis. -/
theorem validate_with_analyzer (c : MonitorConfig) (a : Analyzer) :
    { c with analyzer := a }.validate = c.validate := rfl

/-- **When the analysis stays within words.**  Whether the settings are accepted or not: every value
that the balance takes, over every window of at most `windowCapacity` instructions, is a signed
64-bit word if and only if the balance has room for that many instructions.  Only then does the
analysis in words come to a verdict on all these windows, which is the verdict in whole numbers.
Whether the settings are accepted does not depend on the balance or the strategy. -/
theorem inWord_iff_hasRoom (c : MonitorConfig) :
    ((∀ window : List InstructionClass, window.length ≤ c.windowCapacity →
        ∀ n, InWord (c.analyzer.balanceAt window n)) ↔ c.analyzer.HasRoom c.windowCapacity) ∧
      ((∀ window : List InstructionClass, window.length ≤ c.windowCapacity →
        c.analyzer.judgeInWord window = some (c.analyzer.judge window)) ↔
          c.analyzer.HasRoom c.windowCapacity) ∧
      (∀ a : Analyzer, { c with analyzer := a }.validate = c.validate) := by
  have hroom := c.analyzer.hasRoom_iff c.windowCapacity
  refine ⟨hroom.symm, ?_, c.validate_with_analyzer⟩
  rw [hroom]
  constructor
  · intro hjudge window hwindow
    exact (Analyzer.judgeInWord_eq_some_iff _ window).mp (hjudge window hwindow)
  · intro hrange window hwindow
    exact (Analyzer.judgeInWord_eq_some_iff _ window).mpr (hrange window hwindow)

/-- Settings that are accepted although one return takes their balance out of the words. -/
theorem not_inWord_of_validate :
    ¬∀ c : MonitorConfig, c.validate = .ok () →
      ∀ window : List InstructionClass, window.length ≤ c.windowCapacity →
        (∀ n, InWord (c.analyzer.balanceAt window n)) ∧ c.analyzer.judgeInWord window ≠ none := by
  intro hall
  let c : MonitorConfig := { analyzer := { initialBalance := 9223372036854775807 } }
  have hvalid : c.validate = .ok () := by decide
  obtain ⟨hrange, -⟩ := hall c hvalid [.nearReturn] (by decide)
  exact absurd (hrange 1) (by decide)

end MonitorConfig

end BranchWatch
