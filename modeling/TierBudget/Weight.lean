/-!
# Unit weights and raw weights

A unit weight is a share in `[0, 1]`. A raw weight is a number from outside that may be a fraction
or a percentage; if it does not say which, `inferUnit` decides by its size.
-/

namespace TierBudget

/-- A share in `[0, 1]`: NaN becomes `0`, and numbers outside go to the nearer end. Negative zero
stays as it is. -/
def clampUnit (x : Float) : Float :=
  if x.isNaN then 0 else if x < 0 then 0 else if 1 < x then 1 else x

/-- The unit weight of a number that does not say what it is out of: above `1 + epsilon` it is a
percentage, else a fraction. -/
def inferUnit (raw epsilon : Float) : Float :=
  if 1 + epsilon < raw then clampUnit (raw / 100) else clampUnit raw

/-- What a raw weight is out of. -/
inductive Denomination where
  /-- Out of one. -/
  | fraction
  /-- Out of a hundred. -/
  | percent
deriving DecidableEq

/-- The name of a denomination in texts. -/
def Denomination.name : Denomination → String
  | .fraction => "fraction"
  | .percent => "percent"

/-- A weight as it comes from outside. -/
structure RawWeight where
  value : Float
  denomination : Option Denomination
deriving DecidableEq

/-- The unit weight that a raw weight stands for. -/
def RawWeight.toUnit (w : RawWeight) (epsilon : Float) : Float :=
  match w.denomination with
  | some .fraction => clampUnit w.value
  | some .percent => clampUnit (w.value / 100)
  | none => inferUnit w.value epsilon

/-- The unit weight of one endpoint of a tier. -/
structure Entry (ι : Type) where
  id : ι
  unit : Float
deriving DecidableEq

/-- The raw weight of one endpoint of a tier. -/
structure RawEntry (ι : Type) where
  id : ι
  weight : RawWeight
deriving DecidableEq

/-- The weight of one endpoint of a tier in fixed-point units. -/
structure FixedEntry (ι : Type) where
  id : ι
  count : UInt32
deriving DecidableEq

end TierBudget
