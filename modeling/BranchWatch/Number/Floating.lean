import BranchWatch.Number.Shortest

/-!
# Floating-point numbers as text

A number is written with the fewest digits that read back, always with all its
places and never with an exponent.  It is read from digits with an optional
point, sign and exponent, or from the words for infinity and for no number.
-/

namespace BranchWatch

namespace Decimal

/-- All places of the number; no point stands at the end. -/
def positional (d : Decimal) : String :=
  if 0 ≤ d.exponent then toString (d.digits * Nat.pow 10 d.exponent.toNat)
  else
    let places := (-d.exponent).toNat
    let unit := Nat.pow 10 places
    let digits := Nat.toDigits 10 (d.digits % unit)
    let fraction := List.replicate (places - digits.length) '0' ++ digits
    let kept := (fraction.reverse.dropWhile (· = '0')).reverse
    toString (d.digits / unit) ++ if kept.isEmpty then "" else "." ++ String.ofList kept

end Decimal

/-- Why a text is not a number. -/
inductive FloatingFault where
  | empty
  | invalid
  deriving DecidableEq, Repr

def FloatingFault.message : FloatingFault → String
  | empty => "cannot parse float from empty string"
  | invalid => "invalid float literal"

namespace Floating

/-- The interval of a positive finite number, from its bits. -/
def rounding (x : Float) : Rounding :=
  let bits := x.toBits.toNat
  let top := Nat.pow 2 52
  let fraction := bits % top
  let exponent : Nat := bits / top % Nat.pow 2 11
  if exponent = 0 then .ofBinary fraction (-1074) false
  else .ofBinary (top + fraction) ((exponent : Int) - 1075) (fraction = 0 ∧ 1 < exponent)

/-- Whether the sign bit is set. -/
def isNegative (x : Float) : Bool := Nat.pow 2 63 ≤ x.toBits.toNat

def render (x : Float) : String :=
  if x.isNaN then "NaN"
  else
    (if isNegative x then "-" else "")
      ++ (if x.isInf then "inf"
        else if x == 0.0 then "0"
        else (rounding x).shortest.positional)

/-- The number nearest to `digits * 10 ^ exponent`.  The bounds only avoid huge
powers: a number outside them is too great or too small for any other answer. -/
def ofDecimal (digits : Nat) (exponent : Int) : Float :=
  let size := exponent + (Nat.toDigits 10 digits).length
  if digits = 0 then 0.0
  else if 320 < size then 1.0 / 0.0
  else if size < -340 then 0.0
  else Float.ofScientific digits (exponent < 0) exponent.natAbs

def value (digits : List Char) : Nat :=
  digits.foldl (fun n c => 10 * n + (c.toNat - '0'.toNat)) 0

/-- The exponent behind the digits; nothing may follow it. -/
def readExponent : List Char → Option Int
  | [] => some 0
  | c :: rest =>
    if c = 'e' ∨ c = 'E' then
      let (negative, digits) := match rest with
        | '-' :: digits => (true, digits)
        | '+' :: digits => (false, digits)
        | digits => (false, digits)
      if digits.isEmpty ∨ !digits.all Char.isDigit then none
      else some (if negative then -(value digits : Int) else value digits)
    else none

/-- Digits with an optional point and exponent. -/
def readNumber (s : List Char) : Option Float :=
  let whole := s.takeWhile Char.isDigit
  let (fraction, rest) := match s.dropWhile Char.isDigit with
    | '.' :: behind => (behind.takeWhile Char.isDigit, behind.dropWhile Char.isDigit)
    | behind => ([], behind)
  if whole.isEmpty ∧ fraction.isEmpty then none
  else
    (readExponent rest).map fun exponent =>
      ofDecimal (value (whole ++ fraction)) (exponent - fraction.length)

/-- A number without a sign. -/
def readUnsigned (s : List Char) : Option Float :=
  match readNumber s with
  | some x => some x
  | none =>
    match String.ofList (s.map Char.toLower) with
    | "inf" | "infinity" => some (1.0 / 0.0)
    | "nan" => some (0.0 / 0.0)
    | _ => none

def read (s : List Char) : Except FloatingFault Float :=
  let found := match s with
    | '+' :: rest => readUnsigned rest
    | '-' :: rest => (readUnsigned rest).map Float.neg
    | _ => readUnsigned s
  match found with
  | some x => .ok x
  | none => .error (if s.isEmpty then .empty else .invalid)

end Floating

end BranchWatch
