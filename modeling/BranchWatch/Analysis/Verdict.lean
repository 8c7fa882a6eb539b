import BranchWatch.Text.Quoted

/-!
# Verdicts

What the analysis of a window says, how it may be asked to look, and the words
for both.
-/

namespace BranchWatch

/-- How a window is scanned.  All strategies look from its end backwards. -/
inductive Strategy where
  /-- Over the whole window; the calls and returns must balance at its start. -/
  | fullScan
  /-- Up to the first place where the calls and returns balance. -/
  | earlyExit
  /-- From the last far transfer to the first call or return before it.  A
  call means that the far transfer was made from a called function, a return
  that it was reached by returning into it. -/
  | farCallAnchor
  deriving DecidableEq, Repr, Inhabited

/-- A name that no strategy has. -/
structure UnknownStrategy where
  name : String
  deriving DecidableEq, Repr

def UnknownStrategy.message (e : UnknownStrategy) : String :=
  "unknown strategy " ++ Quoted.render e.name
    ++ ", expected one of: full-scan, early-exit, far-call-anchor"

namespace Strategy

def all : List Strategy := [fullScan, earlyExit, farCallAnchor]

def name : Strategy → String
  | fullScan => "full-scan"
  | earlyExit => "early-exit"
  | farCallAnchor => "far-call-anchor"

/-- The strategy as the name of a case. -/
def describe : Strategy → String
  | fullScan => "FullScan"
  | earlyExit => "EarlyExit"
  | farCallAnchor => "FarCallAnchor"

/-- The strategy of a given name. -/
def ofName (s : String) : Except UnknownStrategy Strategy :=
  match all.find? (·.name = s) with
  | some strategy => .ok strategy
  | none => .error ⟨s⟩

theorem ofName_name (s : Strategy) : ofName s.name = .ok s := by
  cases s <;> rfl

end Strategy

/-- Why a window is suspicious. -/
inductive Reason where
  /-- Nothing was decoded, so nothing can be vouched for. -/
  | emptyWindow
  /-- The calls and returns do not balance; what is left over. -/
  | unbalanced (residual : Int)
  /-- The far transfer was reached through a return. -/
  | returnIntoFarTransfer
  /-- Neither a call nor a return comes before the far transfer. -/
  | undecided
  deriving DecidableEq, Repr

namespace Reason

/-- The name of the kind of reason. -/
def kind : Reason → String
  | emptyWindow => "EmptyWindow"
  | unbalanced _ => "Unbalanced"
  | returnIntoFarTransfer => "ReturnIntoFarTransfer"
  | undecided => "Undecided"

/-- What is left over, if this is the reason. -/
def residual? : Reason → Option Int
  | unbalanced residual => some residual
  | _ => none

def message : Reason → String
  | emptyWindow => "empty window"
  | unbalanced residual =>
    "unbalanced calls and returns (residual " ++ toString residual ++ ")"
  | returnIntoFarTransfer => "far transfer reached through a return"
  | undecided => "no call or return before the far transfer"

/-- The reason as a name with its fields. -/
def describe (r : Reason) : String :=
  match r.residual? with
  | some residual => r.kind ++ " \x7b residual: " ++ toString residual ++ " \x7d"
  | none => r.kind

end Reason

/-- What the analysis says about one window. -/
inductive Verdict where
  | consistent
  | suspicious (reason : Reason)
  deriving DecidableEq, Repr

namespace Verdict

def isConsistent : Verdict → Bool
  | consistent => true
  | suspicious _ => false

/-- Why the window is suspicious, if it is. -/
def reason? : Verdict → Option Reason
  | consistent => none
  | suspicious reason => some reason

/-- A window is consistent if nothing is left over. -/
def ofResidual (residual : Int) : Verdict :=
  if residual = 0 then consistent else suspicious (.unbalanced residual)

end Verdict

end BranchWatch
