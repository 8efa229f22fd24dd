/-!
# The exact value of a double

A finite double stands for `± mantissa · 2 ^ exponent`. `Magnitude.ofFloat` reads that value, sign
aside, and everything that must be exact (rounding to a whole number, decimal text) is computed from
it in whole numbers.

* `roundDiv` divides and rounds to nearest, a half going where its `Tie` says.
* `Magnitude.floor` and `Magnitude.round` are the whole number below and the nearest one.
-/

namespace TierBudget

/-- Where a value halfway between two candidates goes. -/
inductive Tie where
  /-- To the candidate that is even. -/
  | even
  /-- To the larger candidate. -/
  | up
deriving DecidableEq

/-- Whether a value halfway between `q` and `q + 1` goes to `q + 1`. -/
def Tie.goesUp (tie : Tie) (q : Nat) : Bool :=
  match tie with
  | .even => q % 2 == 1
  | .up => true

/-- The whole number nearest to `num / den`. -/
def roundDiv (tie : Tie) (num den : Nat) : Nat :=
  let q := num / den
  match compare (2 * (num % den)) den with
  | .lt => q
  | .eq => if tie.goesUp q then q + 1 else q
  | .gt => q + 1

/-- The number `mantissa · 2 ^ exponent`. -/
structure Magnitude where
  mantissa : Nat
  exponent : Int
deriving DecidableEq

namespace Magnitude

/-- The exact value of a finite double, sign aside. NaN and the infinities have none and are read
as `0`. -/
def ofFloat (x : Float) : Magnitude :=
  match x.toModel.unpack with
  | .finite _ m e _ => ⟨m, e⟩
  | _ => ⟨0, 0⟩

/-- The numerator of the value as a fraction over `den`. -/
def num (x : Magnitude) : Nat := x.mantissa * Nat.pow 2 x.exponent.toNat

/-- A power of two: the denominator of the value. -/
def den (x : Magnitude) : Nat := Nat.pow 2 (-x.exponent).toNat

/-- The largest whole number that is not above the value. -/
def floor (x : Magnitude) : Nat := x.num / x.den

/-- The nearest whole number, a half going up. -/
def round (x : Magnitude) : Nat := roundDiv .up x.num x.den

theorem den_pos (x : Magnitude) : 0 < x.den := Nat.two_pow_pos _

end Magnitude

/-- Whether a double carries a minus sign; negative zero does, NaN does not. -/
def isNegative (x : Float) : Bool :=
  match x.toModel.unpack with
  | .finite .negative .. | .zero .negative | .infinity .negative => true
  | _ => false

end TierBudget
