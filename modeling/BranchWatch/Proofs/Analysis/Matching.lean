import BranchWatch.Analysis.Analyzer
import Mathlib.Algebra.Group.Int.Defs
import Mathlib.Data.List.Induction

/-!
# Calls, returns and the balance

Match each return of a window with the nearest earlier call that is left (`Matching.ofWindow`).
What the two strategies that keep a balance say depends only on how many calls and how many returns
stay without a partner (`Analyzer.judge_of_matching`).

The balance is taken backwards, and the matching goes forwards.  So both are compared along a window
that grows at its end: a call there makes the balance one less and leaves one more call, and a
return there makes it one more and takes a call away if there is one.  Every value that the balance
takes differs from the first one by no more than the number of instructions
(`Analyzer.finalBalance_bounds`).
-/

namespace BranchWatch

/-- Calls and returns matched with each other, all told by their places in a window. -/
structure Matching where
  /-- The calls that no return was matched with, the latest first. -/
  calls : List Nat := []
  /-- Calls, each with its return. -/
  pairs : List (Nat × Nat) := []
  /-- The returns that found no call. -/
  returns : List Nat := []
  deriving DecidableEq

namespace Matching

/-- The matching with one more instruction.  A return takes the nearest call that is left. -/
def add (m : Matching) (place : Nat) : InstructionClass → Matching
  | .nearCall => { m with calls := place :: m.calls }
  | .nearReturn =>
    match m.calls with
    | [] => { m with returns := place :: m.returns }
    | call :: calls => { m with calls, pairs := (call, place) :: m.pairs }
  | _ => m

theorem add_nearCall (m : Matching) (place : Nat) :
    m.add place .nearCall = { m with calls := place :: m.calls } := rfl

theorem add_nearReturn_of_nil {m : Matching} (hcalls : m.calls = []) (place : Nat) :
    m.add place .nearReturn = { m with returns := place :: m.returns } := by
  simp only [add, hcalls]

theorem add_nearReturn_of_cons {m : Matching} {call : Nat} {calls : List Nat}
    (hcalls : m.calls = call :: calls) (place : Nat) :
    m.add place .nearReturn = { m with calls, pairs := (call, place) :: m.pairs } := by
  simp only [add, hcalls]

/-- The matching of the calls and returns of a window. -/
def ofWindow (window : List InstructionClass) : Matching :=
  window.zipIdx.foldl (fun m x => m.add x.2 x.1) {}

variable {window : List InstructionClass}

theorem ofWindow_concat (window : List InstructionClass) (c : InstructionClass) :
    ofWindow (window ++ [c]) = (ofWindow window).add window.length c := by
  simp [ofWindow, List.zipIdx_append]

/-- Each call and each return has a partner or is left. -/
theorem count_ofWindow (window : List InstructionClass) :
    (ofWindow window).calls.length + (ofWindow window).pairs.length = window.count .nearCall ∧
      (ofWindow window).returns.length + (ofWindow window).pairs.length =
        window.count .nearReturn := by
  induction window using List.reverseRecOn with
  | nil => exact ⟨rfl, rfl⟩
  | append_singleton window c ih =>
      obtain ⟨hcalls, hreturns⟩ := ih
      rw [ofWindow_concat, List.count_append, List.count_append, ← hcalls, ← hreturns]
      cases c with
      | nearCall => simp [add_nearCall]; omega
      | nearReturn =>
          cases hleft : (ofWindow window).calls with
          | nil => simp [add_nearReturn_of_nil hleft, hleft]; omega
          | cons => simp [add_nearReturn_of_cons hleft]; omega
      | _ => simp [add]

/-- The nested call takes the first return, and the last return finds no call. -/
example : ofWindow [.nearCall, .nearCall, .ordinary, .nearReturn, .nearReturn, .nearReturn] =
    { calls := [], pairs := [(0, 4), (1, 3)], returns := [5] } := by decide

end Matching

/-- Whether the balance counts an instruction. -/
def InstructionClass.isCounted (c : InstructionClass) : Bool := c = .nearCall ∨ c = .nearReturn

theorem InstructionClass.weight_of_not_isCounted {c : InstructionClass} (h : c.isCounted = false) :
    c.weight = 0 := by
  cases c <;> first | rfl | cases h

namespace Analyzer

variable {window : List InstructionClass} {balance : Int}

/-! ## The whole window -/

theorem finalBalance_cons (balance : Int) (c : InstructionClass) (rest : List InstructionClass) :
    finalBalance balance (c :: rest) = finalBalance (balance + c.weight) rest := rfl

/-- Only how many calls and returns there are matters. -/
theorem finalBalance_eq (balance : Int) (reversed : List InstructionClass) :
    finalBalance balance reversed =
      balance + reversed.count .nearReturn - reversed.count .nearCall := by
  induction reversed generalizing balance with
  | nil => simp [finalBalance]
  | cons c rest ih =>
      rw [finalBalance_cons, ih]
      cases c <;> simp [InstructionClass.weight] <;> omega

/-- The calls and returns that have partners cancel out. -/
theorem finalBalance_reverse (balance : Int) (window : List InstructionClass) :
    finalBalance balance window.reverse =
      balance + (Matching.ofWindow window).returns.length -
        (Matching.ofWindow window).calls.length := by
  obtain ⟨hcalls, hreturns⟩ := Matching.count_ofWindow window
  rw [finalBalance_eq, List.count_reverse, List.count_reverse]
  omega

/-- The balance never moves further than the instructions that it has counted. -/
theorem finalBalance_bounds (balance : Int) (reversed : List InstructionClass) :
    balance - reversed.length ≤ finalBalance balance reversed ∧
      finalBalance balance reversed ≤ balance + reversed.length := by
  have hcalls := reversed.count_le_length (a := .nearCall)
  have hreturns := reversed.count_le_length (a := .nearReturn)
  rw [finalBalance_eq]
  omega

theorem finalBalance_filter (balance : Int) (reversed : List InstructionClass) :
    finalBalance balance (reversed.filter (·.isCounted)) = finalBalance balance reversed := by
  rw [finalBalance_eq, finalBalance_eq, List.count_filter rfl, List.count_filter rfl]

/-! ## Up to the first place where the balance is zero -/

theorem balanceUntilZero_one_call (rest : List InstructionClass) :
    balanceUntilZero 1 (.nearCall :: rest) = 0 := by
  simp [balanceUntilZero, InstructionClass.weight]

theorem balanceUntilZero_call (hbalance : balance ≠ 1) (rest : List InstructionClass) :
    balanceUntilZero balance (.nearCall :: rest) = balanceUntilZero (balance - 1) rest := by
  have hnext : ¬balance + -1 = 0 := by omega
  simp [balanceUntilZero, InstructionClass.weight, hnext, Int.sub_eq_add_neg]

theorem balanceUntilZero_return (hbalance : 0 < balance) (rest : List InstructionClass) :
    balanceUntilZero balance (.nearReturn :: rest) = balanceUntilZero (balance + 1) rest := by
  have hnext : ¬balance + 1 = 0 := by omega
  simp [balanceUntilZero, InstructionClass.weight, hnext]

theorem balanceUntilZero_of_not_isCounted {c : InstructionClass} (hcounted : c.isCounted = false)
    (balance : Int) (rest : List InstructionClass) :
    balanceUntilZero balance (c :: rest) = balanceUntilZero balance rest := by
  simp [balanceUntilZero, InstructionClass.weight_of_not_isCounted hcounted]

/-- Backwards from its end, a balance above zero comes to zero in the window if and only if as many
calls are left there. -/
theorem balanceUntilZero_reverse (window : List InstructionClass) (hbalance : 0 < balance) :
    let calls : Int := (Matching.ofWindow window).calls.length
    let returns : Int := (Matching.ofWindow window).returns.length
    (balance ≤ calls → balanceUntilZero balance window.reverse = 0) ∧
      (calls < balance → balanceUntilZero balance window.reverse = balance + returns - calls) := by
  induction window using List.reverseRecOn generalizing balance with
  | nil =>
      refine ⟨fun hcalls => ?_, fun _ => ?_⟩
      · exact absurd (Int.lt_of_lt_of_le hbalance hcalls) (by decide)
      · simp [balanceUntilZero, Matching.ofWindow]
  | append_singleton window c ih =>
      rw [List.reverse_concat, Matching.ofWindow_concat]
      cases c with
      | nearCall =>
          simp only [Matching.add_nearCall, List.length_cons]
          by_cases hone : balance = 1
          · subst hone
            exact ⟨fun _ => balanceUntilZero_one_call _, fun hcalls => absurd hcalls (by omega)⟩
          · have hless : 0 < balance - 1 := by omega
            obtain ⟨hzero, hrest⟩ := ih hless
            rw [balanceUntilZero_call hone]
            exact ⟨fun hcalls => hzero (by omega), fun hcalls => by rw [hrest (by omega)]; omega⟩
      | nearReturn =>
          have hmore : 0 < balance + 1 := by omega
          obtain ⟨hzero, hrest⟩ := ih hmore
          rw [balanceUntilZero_return hbalance]
          -- The return takes the last call that is left, or it is left itself.
          cases hleft : (Matching.ofWindow window).calls with
          | nil =>
              rw [Matching.add_nearReturn_of_nil hleft, List.length_cons]
              rw [hleft, List.length_nil] at hrest
              exact ⟨fun hcalls => absurd hcalls (by simpa [hleft] using hbalance),
                fun _ => by rw [hrest (by omega), hleft, List.length_nil]; omega⟩
          | cons call calls =>
              simp only [Matching.add_nearReturn_of_cons hleft]
              rw [hleft, List.length_cons] at hzero hrest
              exact ⟨fun hcalls => hzero (by omega), fun hcalls => by rw [hrest (by omega)]; omega⟩
      | _ =>
          rw [balanceUntilZero_of_not_isCounted rfl]
          exact ih hbalance

theorem balanceUntilZero_filter (balance : Int) (reversed : List InstructionClass) :
    balanceUntilZero balance (reversed.filter (·.isCounted)) =
      balanceUntilZero balance reversed := by
  induction reversed generalizing balance with
  | nil => rfl
  | cons c rest ih =>
      cases hcounted : c.isCounted with
      | true => rw [List.filter_cons_of_pos hcounted, balanceUntilZero, balanceUntilZero, ih]
      | false =>
          rw [List.filter_cons_of_neg (by simp [hcounted]), ih,
            balanceUntilZero_of_not_isCounted hcounted]

/-! ## The verdicts -/

theorem judge_fullScan (balance : Int64) (hwindow : window ≠ []) :
    judge ⟨.fullScan, balance⟩ window =
      .ofResidual (finalBalance balance.toInt window.reverse) := by
  simp [judge, hwindow]

theorem judge_earlyExit (balance : Int64) (hwindow : window ≠ []) :
    judge ⟨.earlyExit, balance⟩ window =
      .ofResidual (balanceUntilZero balance.toInt window.reverse) := by
  simp [judge, hwindow]

/-- Windows with the same calls and returns are judged alike. -/
theorem judge_congr {window' : List InstructionClass} (balance : Int64) (hwindow : window ≠ [])
    (hwindow' : window' ≠ [])
    (hsame : window'.filter (·.isCounted) = window.filter (·.isCounted)) :
    judge ⟨.fullScan, balance⟩ window' = judge ⟨.fullScan, balance⟩ window ∧
      judge ⟨.earlyExit, balance⟩ window' = judge ⟨.earlyExit, balance⟩ window := by
  have hreversed : window'.reverse.filter (·.isCounted) = window.reverse.filter (·.isCounted) := by
    rw [List.filter_reverse, List.filter_reverse, hsame]
  rw [judge_fullScan balance hwindow, judge_fullScan balance hwindow',
    judge_earlyExit balance hwindow, judge_earlyExit balance hwindow']
  constructor
  · rw [← finalBalance_filter, hreversed, finalBalance_filter]
  · rw [← balanceUntilZero_filter, hreversed, balanceUntilZero_filter]

/-- **What the two strategies that keep a balance decide.**  Let `calls` and `returns` be the
numbers of calls and of returns that are left without a partner.  A scan of the whole window accepts
it if and only if exactly the balance is left, a scan up to the first zero if and only if at least
that many calls are left, and otherwise each tells what is left of the balance.  So the second
strategy accepts what the first one does, and they reject for the same reason.

If balance and window together stay below `2 ^ 63`, then no value of the balance leaves the range of
signed 64-bit numbers. -/
theorem judge_of_matching (balance : Int64) (hbalance : 1 ≤ balance.toInt) (hwindow : window ≠ []) :
    let calls : Int := (Matching.ofWindow window).calls.length
    let returns : Int := (Matching.ofWindow window).returns.length
    let full := judge ⟨.fullScan, balance⟩ window
    let early := judge ⟨.earlyExit, balance⟩ window
    (full = if calls - returns = balance.toInt then .consistent
      else .suspicious (.unbalanced (balance.toInt + returns - calls))) ∧
    (early = if calls ≥ balance.toInt then .consistent
      else .suspicious (.unbalanced (balance.toInt + returns - calls))) ∧
    (full = .consistent → early = .consistent) ∧
    (full ≠ .consistent → early ≠ .consistent → early = full) ∧
    (judge { strategy := .earlyExit } window = .consistent ↔ 1 ≤ calls) ∧
    (∀ window' ≠ [], window'.filter (·.isCounted) = window.filter (·.isCounted) →
      judge ⟨.fullScan, balance⟩ window' = full ∧ judge ⟨.earlyExit, balance⟩ window' = early) ∧
    (balance.toInt + window.length < 2 ^ 63 → ∀ n,
      -2 ^ 63 ≤ finalBalance balance.toInt (window.reverse.take n) ∧
        finalBalance balance.toInt (window.reverse.take n) < 2 ^ 63) := by
  intro calls returns full early
  have hfull : full = if calls - returns = balance.toInt then .consistent
      else .suspicious (.unbalanced (balance.toInt + returns - calls)) := by
    have hjudge : full = _ := judge_fullScan balance hwindow
    rw [hjudge, finalBalance_reverse, Verdict.ofResidual]
    by_cases hzero : calls - returns = balance.toInt
    · rw [if_pos hzero, if_pos (by omega)]
    · rw [if_neg hzero, if_neg (by omega)]
  have hearly (k : Int64) (hk : 1 ≤ k.toInt) : judge ⟨.earlyExit, k⟩ window =
      if calls ≥ k.toInt then .consistent
      else .suspicious (.unbalanced (k.toInt + returns - calls)) := by
    have hpos : 0 < k.toInt := hk
    obtain ⟨hzero, hrest⟩ := balanceUntilZero_reverse window hpos
    rw [judge_earlyExit k hwindow, Verdict.ofResidual]
    by_cases hcalls : calls ≥ k.toInt
    · rw [if_pos hcalls, hzero hcalls, if_pos rfl]
    · have hreturns : 0 ≤ returns := Int.natCast_nonneg _
      rw [if_neg hcalls, hrest (by omega), if_neg (by omega)]
  refine ⟨hfull, hearly balance hbalance, ?_, ?_, ?_, ?_, ?_⟩
  · intro haccepted
    rw [hfull] at haccepted
    have hreturns : 0 ≤ returns := Int.natCast_nonneg _
    have hzero : calls - returns = balance.toInt := by
      by_contra hne
      rw [if_neg hne] at haccepted
      cases haccepted
    exact (hearly balance hbalance).trans (if_pos (by omega))
  · intro hfull' hearly'
    rw [hfull] at hfull' ⊢
    have hjudge : early = _ := hearly balance hbalance
    rw [hjudge] at hearly' ⊢
    have hzero : ¬calls - returns = balance.toInt := fun h => hfull' (if_pos h)
    have hcalls : ¬calls ≥ balance.toInt := fun h => hearly' (if_pos h)
    rw [if_neg hzero, if_neg hcalls]
  · have hone : ((1 : Int64)).toInt = 1 := by decide
    have hjudge := hearly 1 (by decide)
    rw [hone] at hjudge
    refine Iff.trans (Eq.congr_left hjudge) ?_
    by_cases hcalls : calls ≥ 1
    · simp [hcalls]
    · simp [hcalls]
  · exact fun window' hwindow' hsame => judge_congr balance hwindow hwindow' hsame
  · intro hsize n
    have hbounds := finalBalance_bounds balance.toInt (window.reverse.take n)
    have htaken : (window.reverse.take n).length ≤ window.length := by
      rw [List.length_take, List.length_reverse]
      exact Nat.min_le_right _ _
    omega

/-- A return, a call that is left, a pair, another call that is left, and a far transfer. -/
theorem judge_of_two_open_calls :
    let window : List InstructionClass :=
      [.nearReturn, .nearCall, .ordinary, .nearCall, .nearReturn, .nearCall, .farTransfer]
    1 ≤ (2 : Int64).toInt ∧ window ≠ [] ∧
      judge ⟨.fullScan, 2⟩ window = .suspicious (.unbalanced 1) ∧
      judge ⟨.earlyExit, 2⟩ window = .consistent := by
  intro window
  have hbalance : 1 ≤ (2 : Int64).toInt := by decide
  have hwindow : window ≠ [] := by decide
  obtain ⟨hfull, hearly, -⟩ := judge_of_matching 2 hbalance hwindow
  exact ⟨hbalance, hwindow, hfull, hearly⟩

end Analyzer

end BranchWatch
