import BranchWatch.Instruction.Basic
import BranchWatch.Packet.Basic
import BranchWatch.Walk.Error

/-!
# What is known about the path

`FlowState` is the walk's knowledge at one moment: where execution stands, the
branch outcomes that were sent but not used, the calls that a return may go
back to, and the last instruction, whose successor is not known yet.

A packet acts on this knowledge in two ways.  `FlowState.absorb` is what it
changes at once; `FlowState.event` is what it means for the path, if anything.
-/

namespace BranchWatch

/-- How many calls are remembered for returns without a target. -/
def returnDepth : Nat := 64

/-- The addresses that calls will return to, the latest first. -/
structure ReturnStack where
  addresses : List UInt64
  length_le : addresses.length ≤ returnDepth

namespace ReturnStack

def empty : ReturnStack := ⟨[], Nat.zero_le _⟩

/-- Remembers a call; the oldest one is forgotten when there are too many. -/
def push (s : ReturnStack) (address : UInt64) : ReturnStack :=
  ⟨(address :: s.addresses).take returnDepth, List.length_take_le _ _⟩

/-- The latest call and the others, if there is one. -/
def pop? (s : ReturnStack) : Option (UInt64 × ReturnStack) :=
  match s with
  | ⟨[], _⟩ => none
  | ⟨address :: rest, h⟩ => some (address, ⟨rest, Nat.le_of_succ_le h⟩)

end ReturnStack

/-- An instruction whose successor is not known yet. -/
structure Pending where
  ip : UInt64
  size : Nat
  flow : Flow

/-- The address behind the instruction. -/
def Pending.fallThrough (p : Pending) : UInt64 := p.ip + p.size.toUInt64

structure FlowState where
  /-- The next instruction; `none` while tracing is off or the place is not
  known. -/
  ip : Option UInt64 := none
  mode : ExecMode := .bits64
  /-- The address that the next compressed one refers to. -/
  lastIp : UInt64 := 0
  /-- Branch outcomes not used yet, oldest first. -/
  tnt : List Bool := []
  returns : ReturnStack := .empty
  pending : Option Pending := none

/-- What a packet means for the path. -/
inductive FlowEvent where
  /-- Branch outcomes have come. -/
  | tnt
  /-- An address has come, or the notice that tracing stopped. -/
  | ip (kind : IpKind) (ip : Option UInt64)
  /-- The current address, told inside a synchronisation group. -/
  | status (ip : Option UInt64)
  deriving DecidableEq, Repr

namespace FlowState

/-- Forgets everything that depends on packets that may have been lost.  Only
the execution mode stays. -/
def reset (s : FlowState) : FlowState := { mode := s.mode }

/-- What a packet changes at once. -/
def absorb (s : FlowState) : Packet → FlowState
  | .execMode mode => { s with mode }
  | .psb => { s with lastIp := 0 }
  | .tnt taken => { s with tnt := s.tnt ++ taken }
  | .ip _ payload => { s with lastIp := (payload.apply s.lastIp).getD s.lastIp }
  | _ => s

/-- What a packet at an offset means for the path.  `inPsb` says whether it
stands inside a synchronisation group. -/
def event (s : FlowState) (inPsb : Bool) (offset : Nat) :
    Packet → Except DecodeError (Option FlowEvent)
  | .overflow => .error (.overflow offset)
  | .traceStop => .ok (some (.ip .pgd none))
  | .tnt _ => .ok (some .tnt)
  | .ip kind payload =>
    let ip := payload.apply s.lastIp
    if kind = .fup ∧ inPsb then .ok (some (.status ip)) else .ok (some (.ip kind ip))
  | _ => .ok none

end FlowState

/-- Whether a synchronisation group is open behind a packet. -/
def inPsbAfter (inPsb : Bool) : Packet → Bool
  | .psb => true
  | .psbEnd => false
  | _ => inPsb

end BranchWatch
