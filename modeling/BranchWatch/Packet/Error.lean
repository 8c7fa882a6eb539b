import BranchWatch.Packet.Basic
import BranchWatch.Text.Hex

/-!
# What is said about a packet that cannot be read
-/

namespace BranchWatch

/-- The name of the kind of fault. -/
def PacketFault.kind : PacketFault → String
  | truncated => "Truncated"
  | unknownOpcode _ => "UnknownOpcode"
  | unknownExtendedOpcode _ => "UnknownExtendedOpcode"
  | reservedIpBytes _ => "ReservedIpBytes"
  | emptyTnt => "EmptyTnt"

/-- The fault of a given kind that names a byte of the packet, where one does. -/
def PacketFault.ofKind? (kind : String) (byte : UInt8) : Option PacketFault :=
  [truncated, unknownOpcode byte, unknownExtendedOpcode byte, reservedIpBytes byte,
    emptyTnt].find? (·.kind = kind)

/-- The cause in words; opcodes have two hexadecimal digits. -/
def PacketFault.message : PacketFault → String
  | truncated => "packet runs past the end of the buffer"
  | unknownOpcode header => "unknown opcode 0x" ++ Hex.byte header
  | unknownExtendedOpcode opcode => "unknown extended opcode 0x" ++ Hex.byte opcode
  | reservedIpBytes code => "reserved IP compression " ++ toString code.toNat
  | emptyTnt => "TNT packet without a stop bit"

/-- The place and the cause. -/
def PacketError.message (e : PacketError) : String :=
  "bad packet at offset " ++ Hex.number e.offset ++ ": " ++ e.fault.message

end BranchWatch
