import TierBudget.Decimal.Basic
/-!
# The shortest decimal that reads back

Every double is the nearest one to all the reals of an interval around it (`Rounding`). Among the
decimals of that interval `shortest` takes one of the fewest digits, and of those the nearest to the
double. It is the one that `shortestOf` finds on the decimal grids of 1, 2, … 17 digits, read back
before it is used; the exact expansion stands in where nothing reads back.
-/

namespace TierBudget

/-- The reals that round to a double, as numerators over one denominator. -/
structure Rounding where
  value : Nat
  lower : Nat
  upper : Nat
  den : Nat
  /-- Whether the two ends round to the double as well. -/
  closed : Bool

namespace Rounding

/-- The interval halfway to both neighbours of a positive double. Below a power of two the doubles
lie twice as close, unless that power is the least normal number. The ends belong to the interval
if the mantissa is even. -/
def of (x : Magnitude) : Rounding :=
  let unit := Nat.pow 2 (x.exponent - 2).toNat
  let gap := if x.mantissa = Nat.pow 2 52 ∧ -1074 < x.exponent then 1 else 2
  { value := 4 * x.mantissa * unit
    lower := (4 * x.mantissa - gap) * unit
    upper := (4 * x.mantissa + 2) * unit
    den := Nat.pow 2 (2 - x.exponent).toNat
    closed := x.mantissa % 2 == 0 }

/-- Whether `num / (den · scale)` rounds to the double, for a `den` that is the interval's. -/
def contains (r : Rounding) (num scale : Nat) : Bool :=
  if r.closed then r.lower * scale ≤ num && num ≤ r.upper * scale
  else r.lower * scale < num && num < r.upper * scale

/-- The place `k` for which the double is `0.d₁d₂… · 10 ^ k` with `d₁` not zero. No power of ten
below one is a double, so a number below one lies strictly between two of them. -/
def point (r : Rounding) : Int :=
  if r.den ≤ r.value then (digitsOf (r.value / r.den)).length
  else 1 - (digitsOf (r.den / r.value)).length

/-- The decimal on the grid of step `10 ^ e` that rounds to the double and is nearest to it. -/
def onGrid (r : Rounding) (tie : Tie) (e : Int) : Option Decimal :=
  -- the double is `value / step` steps of the grid
  let step := r.den * Nat.pow 10 e.toNat
  let scale := Nat.pow 10 (-e).toNat
  let value := r.value * scale
  let below := value / step
  let inside (c : Nat) : Bool := r.contains (c * step) scale
  match inside below, inside (below + 1) with
  | true, true => some ⟨roundDiv tie value step, e⟩
  | true, false => some ⟨below, e⟩
  | false, true => some ⟨below + 1, e⟩
  | false, false => none

end Rounding

/-- The shortest decimal that rounds to a positive double, of equally short ones the nearest, and
of equally near ones the one that `tie` says. -/
def shortestOf (tie : Tie) (x : Magnitude) : Option Decimal :=
  let r := Rounding.of x
  (List.range 17).findSome? fun (n : Nat) => (r.onGrid tie (r.point - n - 1)).map (Decimal.dropZeros 1)

/-- A decimal that reads back as the magnitude of a finite double, of the fewest digits. -/
def shortest (tie : Tie) (x : Float) : Decimal :=
  let m := Magnitude.ofFloat x
  if m.mantissa = 0 then ⟨0, 0⟩
  else match shortestOf tie m with
    | some d => if Magnitude.ofFloat d.toFloat = m then d else .exact m
    | none => .exact m

end TierBudget
