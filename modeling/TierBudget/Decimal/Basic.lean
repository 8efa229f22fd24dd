import TierBudget.Magnitude
/-!
# Decimal numbers

A `Decimal` is `coefficient · 10 ^ exponent`. `Decimal.toFloat` is the double nearest to it and
`Decimal.exact` writes a double without rounding.
-/

namespace TierBudget

/-- The decimal digits of a number, the most significant first; `0` has the one digit `0`. -/
def digitsOf (n : Nat) : List Char := Nat.toDigits 10 n

/-- The decimal text of a number. -/
def decimalText (n : Nat) : String := .ofList (digitsOf n)

/-- The number that a run of decimal digits writes. -/
def ofDigits (ds : List Char) : Nat := ds.foldl (fun n d => 10 * n + (d.toNat - '0'.toNat)) 0

/-- `x`, or `-x` if `negative`. -/
def applySign (negative : Bool) (x : Float) : Float := if negative then -x else x

/-- The number `coefficient · 10 ^ exponent`. -/
structure Decimal where
  coefficient : Nat
  exponent : Int
deriving DecidableEq

namespace Decimal

/-- The double nearest to a decimal, ties going to the even one; too large a decimal gives
infinity. -/
def toFloat (d : Decimal) : Float :=
  Float.ofScientific d.coefficient (d.exponent < 0) d.exponent.natAbs

/-- The decimal that has exactly the given value: `1 / 2 ^ n` is `5 ^ n / 10 ^ n`. -/
def exact (x : Magnitude) : Decimal :=
  if 0 ≤ x.exponent then ⟨x.num, 0⟩ else ⟨x.mantissa * Nat.pow 5 x.exponent.natAbs, x.exponent⟩

/-- Drops at most `n` zeros from the end of the coefficient. -/
def dropZeros : Nat → Decimal → Decimal
  | 0, d => d
  | n + 1, d =>
    if d.coefficient % 10 = 0 then dropZeros n ⟨d.coefficient / 10, d.exponent + 1⟩ else d

/-- The digits of the coefficient. -/
def digits (d : Decimal) : List Char := digitsOf d.coefficient

/-- How many places right of its first digit the decimal point stands: `k` for `0.d₁d₂… · 10 ^ k`. -/
def point (d : Decimal) : Int := d.digits.length + d.exponent

end Decimal

end TierBudget
