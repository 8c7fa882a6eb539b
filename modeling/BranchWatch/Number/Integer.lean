/-!
# Reading integers

An integer is written as digits, perhaps behind a sign.  The digits are read
from left to right, and the first one that is wrong or leads out of range
decides which fault is reported.
-/

namespace BranchWatch

/-- Why a text is not an integer of the wanted range. -/
inductive IntegerFault where
  | empty
  | invalidDigit
  | tooLarge
  | tooSmall
  deriving DecidableEq, Repr

def IntegerFault.message : IntegerFault → String
  | empty => "cannot parse integer from empty string"
  | invalidDigit => "invalid digit found in string"
  | tooLarge => "number too large to fit in target type"
  | tooSmall => "number too small to fit in target type"

namespace Integer

/-- The value of a digit in a given base up to 36. -/
def digit? (base : Nat) (c : Char) : Option Nat :=
  let value? :=
    if '0' ≤ c ∧ c ≤ '9' then some (c.toNat - '0'.toNat)
    else if 'a' ≤ c ∧ c ≤ 'z' then some (c.toNat - 'a'.toNat + 10)
    else if 'A' ≤ c ∧ c ≤ 'Z' then some (c.toNat - 'A'.toNat + 10)
    else none
  value?.filter (· < base)

/-- Reads digits behind those that make up `value`.  A value above the limit is
the fault `overflow`. -/
def readDigits (base limit : Nat) (overflow : IntegerFault) (value : Nat) :
    List Char → Except IntegerFault Nat
  | [] => .ok value
  | c :: rest =>
    match digit? base c with
    | none => .error .invalidDigit
    | some d =>
      let next := base * value + d
      if limit < next then .error overflow
      else readDigits base limit overflow next rest

/-- Reads an integer up to `high`, and down to `-low`.  A minus sign is a sign
only if `signed`. -/
def read (base : Nat) (signed : Bool) (low high : Nat) (s : List Char) :
    Except IntegerFault Int :=
  match s with
  | [] => .error .empty
  | ['+'] | ['-'] => .error .invalidDigit
  | '+' :: digits => Int.ofNat <$> readDigits base high .tooLarge 0 digits
  | '-' :: digits =>
    if signed then (fun n => -(Int.ofNat n)) <$> readDigits base low .tooSmall 0 digits
    else .error .invalidDigit
  | digits => Int.ofNat <$> readDigits base high .tooLarge 0 digits

/-- Reads a natural number below `2 ^ bits`. -/
def readNat (base bits : Nat) (s : List Char) : Except IntegerFault Nat :=
  Int.toNat <$> read base false 0 (Nat.pow 2 bits - 1) s

/-- Reads an integer of 64 bits with a sign. -/
def readInt64 (s : List Char) : Except IntegerFault Int64 :=
  Int64.ofInt <$> read 10 true (Nat.pow 2 63) (Nat.pow 2 63 - 1) s

end Integer

end BranchWatch
