import TierBudget.Decimal.Numeral
/-!
# Numbers by scaling

`Numeral.scaledFloat` reads a number from its leading digits, as many as fit 64 bits, times or
divided by a power of ten. Each operation rounds once, so the result is near the number but need not
be the nearest double.
-/

namespace TierBudget

/-- Appends digits to a number as long as it fits 64 bits; the number, and how many digits are left
over. -/
def gather (n : Nat) : List Char → Nat × Nat
  | [] => (n, 0)
  | d :: r =>
    let m := 10 * n + (d.toNat - '0'.toNat)
    if m < UInt64.size then gather m r else (n, r.length + 1)

/-- The double nearest to a power of ten. -/
def powerOfTen (n : Nat) : Float := Float.ofScientific 1 false n

/-- A double times a power of ten. Powers beyond the range of doubles are made of two, and give zero
or infinity where two are not enough. -/
def scaleBy (x : Float) (e : Int) : Float :=
  if 308 < e then if x == 0 then x else 1 / 0
  else if 0 ≤ e then x * powerOfTen e.toNat
  else if -308 ≤ e then x / powerOfTen e.natAbs
  else if -616 ≤ e then x / powerOfTen 308 / powerOfTen (e.natAbs - 308)
  else 0

namespace Numeral

/-- The leading digits, and the power of ten that goes with them. Digits before the point that do
not fit count as zeros, and those after it not at all. -/
def leading (n : Numeral) : Nat × Int :=
  let fraction := n.fraction.getD []
  let (whole, zeros) := gather 0 n.whole
  let (digits, dropped) := gather whole fraction
  (digits, zeros - (fraction.length - dropped : Nat) + n.exponentValue)

/-- The double that results from scaling the leading digits. -/
def scaledFloat (n : Numeral) : Float :=
  let (digits, e) := n.leading
  applySign n.isNegative (scaleBy (.ofNat digits) e)

end Numeral

end TierBudget
