import BranchWatch.Packet.Error
import BranchWatch.Image.Error

/-!
# What can go wrong in following a trace
-/

namespace BranchWatch

/-- What the walk needed from the trace when it found something else. -/
inductive Expected where
  /-- A packet that says where a branch went. -/
  | branchPacket
  /-- The outcome of a conditional branch. -/
  | tntBit
  /-- The target of an indirect branch. -/
  | tip
  /-- The outcome that stands for a return to its call. -/
  | takenReturn
  /-- A call that a return without a target could go back to. -/
  | matchingCall
  /-- Anything else, in words. -/
  | named (what : String)
  deriving DecidableEq, Repr

namespace Expected

def text : Expected → String
  | branchPacket => "branch packet"
  | tntBit => "TNT bit"
  | tip => "TIP"
  | takenReturn => "taken bit for a compressed return"
  | matchingCall => "call for a compressed return"
  | named what => what

/-- The expectation of a given text. -/
def ofText (s : String) : Expected :=
  ([branchPacket, tntBit, tip, takenReturn, matchingCall].find? (·.text = s)).getD (named s)

end Expected

/-- Why a window of the trace, or a part of it, cannot be decoded. -/
inductive DecodeError where
  /-- The window holds no trace data at all. -/
  | endOfStream
  | packet (e : PacketError)
  | noMap (ip : UInt64)
  | badInstruction (ip : UInt64)
  /-- The packets do not fit the code. -/
  | desync (offset : Nat) (expected : Expected)
  /-- The walk went on for too long without needing a packet. -/
  | runaway (ip : UInt64) (steps : Nat)
  /-- The processor dropped packets. -/
  | overflow (offset : Nat)
  | image (e : ImageError)
  deriving DecidableEq, Repr

namespace DecodeError

/-- The name of the kind of error. -/
def kind : DecodeError → String
  | endOfStream => "EndOfStream"
  | packet _ => "Packet"
  | noMap _ => "NoMap"
  | badInstruction _ => "BadInstruction"
  | desync .. => "Desync"
  | runaway .. => "Runaway"
  | overflow _ => "Overflow"
  | image _ => "Image"

def message : DecodeError → String
  | endOfStream => "end of trace stream"
  | packet e => e.message
  | noMap ip => "no code mapped at " ++ Hex.number ip.toNat
  | badInstruction ip => "cannot decode instruction at " ++ Hex.number ip.toNat
  | desync offset expected =>
    "trace out of sync at offset " ++ Hex.number offset ++ ": expected " ++ expected.text
  | runaway ip steps =>
    toString steps ++ " instructions from " ++ Hex.number ip.toNat ++ " without a packet"
  | overflow offset => "internal buffer overflow reported at offset " ++ Hex.number offset
  | image e => e.message

end DecodeError

end BranchWatch
