import BranchWatch.Analysis.Verdict
import BranchWatch.Instruction.Basic

/-!
# The analysis of a window

A window is looked at from its last instruction backwards.  Legitimate code
that came into the window through one outstanding call, and whose calls and
returns nest, leaves the balance at zero; a chain of code pieces that end in
returns has more returns than calls.

The check is coarse.  It keeps no shadow stack, and it cannot tell a deep
legitimate chain of calls over two windows from an attack.
-/

namespace BranchWatch

/-- What an instruction adds to the balance: a return one, a call minus one. -/
def InstructionClass.weight : InstructionClass → Int
  | .nearCall => -1
  | .nearReturn => 1
  | _ => 0

/-- The settings of the analysis. -/
structure Analyzer where
  strategy : Strategy := .fullScan
  /-- Where the balance starts.  One stands for the call through which the
  window was entered. -/
  initialBalance : Int64 := 1
  deriving DecidableEq

namespace Analyzer

/-- The balance after all instructions. -/
def finalBalance (balance : Int) (reversed : List InstructionClass) : Int :=
  reversed.foldl (fun balance c => balance + c.weight) balance

/-- The balance at the first call or return that brings it to zero, else after
all instructions. -/
def balanceUntilZero (balance : Int) : List InstructionClass → Int
  | [] => balance
  | c :: rest =>
    if c.weight ≠ 0 ∧ balance + c.weight = 0 then 0
    else balanceUntilZero (balance + c.weight) rest

/-- What comes before the last far transfer, from there backwards; all
instructions if there is no far transfer. -/
def beforeAnchor (reversed : List InstructionClass) : List InstructionClass :=
  match reversed.dropWhile (· ≠ .farTransfer) with
  | [] => reversed
  | _ :: before => before

/-- Judges by the first call or return. -/
def judgeAnchored : List InstructionClass → Verdict
  | [] => .suspicious .undecided
  | .nearCall :: _ => .consistent
  | .nearReturn :: _ => .suspicious .returnIntoFarTransfer
  | _ :: rest => judgeAnchored rest

/-- Judges a window by the classes of its instructions, in the order of
execution. -/
def judge (a : Analyzer) (window : List InstructionClass) : Verdict :=
  if window.isEmpty then .suspicious .emptyWindow
  else
    let reversed := window.reverse
    match a.strategy with
    | .fullScan => .ofResidual (finalBalance a.initialBalance.toInt reversed)
    | .earlyExit => .ofResidual (balanceUntilZero a.initialBalance.toInt reversed)
    | .farCallAnchor => judgeAnchored (beforeAnchor reversed)

/-- Judges a window of instructions, in the order of execution. -/
def judgeRecords (a : Analyzer) (window : List InstructionRecord) : Verdict :=
  a.judge (window.map (·.cls))

end Analyzer

end BranchWatch
