import BranchWatch.Packet.Basic

/-!
# Names of packets

The names under which packets and their parts are listed.
-/

namespace BranchWatch

def IpKind.name : IpKind → String
  | tip => "Tip"
  | pge => "Pge"
  | pgd => "Pgd"
  | fup => "Fup"

namespace IpPayload

def name : IpPayload → String
  | suppressed => "Suppressed"
  | update16 _ => "Update16"
  | update32 _ => "Update32"
  | sext48 _ => "Sext48"
  | update48 _ => "Update48"
  | full _ => "Full"

/-- The bytes that were sent, if any. -/
def value? : IpPayload → Option UInt64
  | suppressed => none
  | update16 v | update32 v | sext48 v | update48 v | full v => some v

/-- The payload of a given name with the given bytes. -/
def ofName? (s : String) (value : UInt64) : Option IpPayload :=
  [suppressed, update16 value, update32 value, sext48 value, update48 value, full value].find?
    (·.name = s)

end IpPayload

namespace Packet

def name : Packet → String
  | pad => "Pad"
  | psb => "Psb"
  | psbEnd => "PsbEnd"
  | overflow => "Ovf"
  | tnt _ => "Tnt"
  | ip _ _ => "Ip"
  | execMode _ => "ModeExec"
  | transaction => "ModeTsx"
  | tsc => "Tsc"
  | mtc => "Mtc"
  | cyc => "Cyc"
  | tma => "Tma"
  | cbr => "Cbr"
  | pip => "Pip"
  | vmcs => "Vmcs"
  | mnt => "Mnt"
  | traceStop => "TraceStop"
  | ptw => "Ptw"
  | exstop => "Exstop"
  | mwait => "Mwait"
  | pwre => "Pwre"
  | pwrx => "Pwrx"

/-- The number whose binary digits are the outcomes, the oldest first. -/
def outcomeNumber (taken : List Bool) : Nat := taken.foldl (fun n b => 2 * n + b.toNat) 0

end Packet

end BranchWatch
