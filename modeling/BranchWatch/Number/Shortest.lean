/-!
# The shortest decimal that reads back

Many decimals round to the same binary number.  `Rounding.shortest` finds the
one with the fewest digits, and of those the one nearest to the exact value; of
two at the same distance it takes the greater.

The value and the ends of the interval that rounds to it are exact: they are
numerators over one denominator.  A decimal with `n` digits lies on the grid of
multiples of a power of ten, and if any point of that grid lies in the interval,
so does one of the two next to the value.
-/

namespace BranchWatch

/-- The number `digits * 10 ^ exponent`. -/
structure Decimal where
  digits : Nat
  exponent : Int
  deriving DecidableEq, Repr

/-- A positive number and the interval of the numbers that round to it. -/
structure Rounding where
  low : Nat
  value : Nat
  high : Nat
  denominator : Nat
  /-- Whether the ends of the interval round to the number too. -/
  closed : Bool
  deriving DecidableEq, Repr

namespace Rounding

/-- The interval of `mantissa * 2 ^ exponent`, one step of the mantissa wide.
At a power of two the numbers below lie twice as close. -/
def ofBinary (mantissa : Nat) (exponent : Int) (powerOfTwo : Bool) : Rounding :=
  let unit := Nat.pow 2 (exponent - 2).toNat
  { low := (4 * mantissa - if powerOfTwo then 1 else 2) * unit
    value := 4 * mantissa * unit
    high := (4 * mantissa + 2) * unit
    denominator := Nat.pow 2 (2 - exponent).toNat
    closed := mantissa % 2 = 0 }

/-- Whether `n * 10 ^ exponent` rounds to the number. -/
def contains (r : Rounding) (d : Decimal) : Bool :=
  let point := d.digits * Nat.pow 10 d.exponent.toNat * r.denominator
  let scale := Nat.pow 10 (-d.exponent).toNat
  if r.closed then r.low * scale ≤ point ∧ point ≤ r.high * scale
  else r.low * scale < point ∧ point < r.high * scale

/-- How many digits stand before the point; negative if zeros follow it. -/
def magnitude (r : Rounding) : Int :=
  if r.denominator ≤ r.value then (Nat.toDigits 10 (r.value / r.denominator)).length
  else
    let below := Nat.toDigits 10 ((r.denominator - 1) / r.value)
    1 - below.length

/-- The shorter or nearer of the two points next to the value on the grid of
multiples of `10 ^ exponent`, if one of them lies in the interval. -/
def onGrid (r : Rounding) (exponent : Int) : Option Decimal :=
  let unit := r.denominator * Nat.pow 10 exponent.toNat
  let scaled := r.value * Nat.pow 10 (-exponent).toNat
  let below : Decimal := ⟨scaled / unit, exponent⟩
  let above : Decimal := ⟨scaled / unit + 1, exponent⟩
  match r.contains below, r.contains above with
  | true, true => if 2 * (scaled % unit) < unit then some below else some above
  | true, false => some below
  | false, true => some above
  | false, false => none

/-- The shortest decimal in the interval.  Seventeen digits are enough for any
number with 53 binary digits. -/
def shortest (r : Rounding) : Decimal :=
  let exponents := (List.range 17).map fun (n : Nat) => r.magnitude - 1 - n
  (exponents.findSome? r.onGrid).getD ⟨r.value / r.denominator, 0⟩

end Rounding

end BranchWatch
