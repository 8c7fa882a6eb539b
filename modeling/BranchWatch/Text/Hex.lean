/-!
# Hexadecimal text

Addresses, offsets and trace bytes are written with lower-case hexadecimal
digits.  A number has no leading zeros; a byte always has two digits.
-/

namespace BranchWatch.Hex

/-- The lower-case digits of a number, without leading zeros. -/
def digits (n : Nat) : String :=
  String.ofList (Nat.toDigits 16 n)

/-- A number with the customary `0x` in front. -/
def number (n : Nat) : String :=
  "0x" ++ digits n

/-- The two digits of a byte. -/
def byte (b : UInt8) : String :=
  String.ofList [Nat.digitChar (b.toNat / 16), Nat.digitChar (b.toNat % 16)]

/-- The bytes of a sequence, two digits each, with nothing between them. -/
def bytes (bs : List UInt8) : String :=
  String.join (bs.map byte)

/-- The bytes of a sequence as a bracketed list with commas. -/
def byteList (bs : List UInt8) : String :=
  "[" ++ ", ".intercalate (bs.map byte) ++ "]"

/-- The value of a hexadecimal digit of either case. -/
def digitValue? (c : Char) : Option Nat :=
  if '0' ≤ c ∧ c ≤ '9' then some (c.toNat - '0'.toNat)
  else if 'a' ≤ c ∧ c ≤ 'f' then some (c.toNat - 'a'.toNat + 10)
  else if 'A' ≤ c ∧ c ≤ 'F' then some (c.toNat - 'A'.toNat + 10)
  else none

/-- Reads a number from its digits. -/
def readNumber? (s : List Char) : Option Nat :=
  s.foldlM (fun n c => (digitValue? c).map (16 * n + ·)) 0

/-- Reads bytes from two digits each, behind those read before; these stand last
first. -/
def readBytesBehind? (before : List UInt8) : List Char → Option (List UInt8)
  | [] => some before.reverse
  | high :: low :: rest =>
    match readNumber? [high, low] with
    | some b => readBytesBehind? (b.toUInt8 :: before) rest
    | none => none
  | [_] => none

/-- Reads bytes from two digits each. -/
def readBytes? (s : List Char) : Option (List UInt8) := readBytesBehind? [] s

end BranchWatch.Hex
