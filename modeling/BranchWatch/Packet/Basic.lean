import BranchWatch.Instruction.Mode

/-!
# Trace packets

A trace is a sequence of packets.  A few of them steer the reconstruction of
the executed path: branch bits, packets that carry an instruction pointer,
the execution mode, and the markers of synchronisation and overflow.  The
others carry time and power information only and never change the path.

Instruction pointers are sent compressed against the one sent before.  The
payload says which low bytes were sent, and `IpPayload.apply` puts the missing
high bytes back.
-/

namespace BranchWatch

/-- The packets that carry an instruction pointer. -/
inductive IpKind where
  /-- The target of a branch. -/
  | tip
  /-- Tracing was switched on at this address. -/
  | pge
  /-- Tracing was switched off. -/
  | pgd
  /-- The source of an asynchronous event, or the current address inside a
  synchronisation group. -/
  | fup
  deriving DecidableEq, Repr

/-- The payload of a packet that carries an instruction pointer. -/
inductive IpPayload where
  /-- No address was sent. -/
  | suppressed
  /-- The low 16 bits; the others are those of the last address. -/
  | update16 (value : UInt64)
  /-- The low 32 bits; the others are those of the last address. -/
  | update32 (value : UInt64)
  /-- The low 48 bits of an address whose upper bits repeat bit 47. -/
  | sext48 (value : UInt64)
  /-- The low 48 bits; the others are those of the last address. -/
  | update48 (value : UInt64)
  /-- The whole address. -/
  | full (value : UInt64)
  deriving DecidableEq, Repr

/-- The address that a payload stands for after the address `last`. -/
def IpPayload.apply (last : UInt64) : IpPayload → Option UInt64
  | suppressed => none
  | update16 value => some ((last &&& 0xffffffffffff0000) ||| value)
  | update32 value => some ((last &&& 0xffffffff00000000) ||| value)
  | sext48 value => some ((value <<< 16).toInt64 >>> 16).toUInt64
  | update48 value => some ((last &&& 0xffff000000000000) ||| value)
  | full value => some value

/-- A packet of the trace. -/
inductive Packet where
  | pad
  /-- A synchronisation point; it starts a group of status packets. -/
  | psb
  /-- The end of the group that a synchronisation point starts. -/
  | psbEnd
  /-- The processor ran out of internal buffer and lost packets. -/
  | overflow
  /-- Outcomes of branches, oldest first; `true` means taken. -/
  | tnt (taken : List Bool)
  | ip (kind : IpKind) (payload : IpPayload)
  | execMode (mode : ExecMode)
  | transaction
  | tsc
  | mtc
  | cyc
  | tma
  | cbr
  | pip
  | vmcs
  | mnt
  /-- Tracing was stopped by an address filter. -/
  | traceStop
  | ptw
  | exstop
  | mwait
  | pwre
  | pwrx
  deriving DecidableEq, Repr

/-- Packets that do not affect the path of execution. -/
def Packet.isTiming : Packet → Bool
  | pad | tsc | mtc | cyc | tma | cbr | pip | vmcs | mnt | transaction
  | ptw | exstop | mwait | pwre | pwrx => true
  | psb | psbEnd | overflow | tnt _ | ip _ _ | execMode _ | traceStop => false

/-- Why a packet could not be read. -/
inductive PacketFault where
  /-- The buffer ends inside the packet. -/
  | truncated
  | unknownOpcode (header : UInt8)
  | unknownExtendedOpcode (opcode : UInt8)
  /-- The length field of an instruction pointer holds a reserved value. -/
  | reservedIpBytes (code : UInt8)
  /-- A long branch packet without the bit that ends it. -/
  | emptyTnt
  deriving DecidableEq, Repr

/-- A packet that could not be read, and where it starts. -/
structure PacketError where
  offset : Nat
  fault : PacketFault
  deriving DecidableEq, Repr

end BranchWatch
