import TierBudget.Count
import TierBudget.Magnitude
import TierBudget.Weight
/-!
# Fixed-point scales

A scale is the number of units that make up a whole tier. `Scale.encode` rounds one unit weight to a
count and `Scale.decode` reads a count back. The counts of a whole tier come from `apportion`,
because counts rounded one by one need not add up to the scale.
-/

namespace TierBudget

/-- The number of fixed-point units that make up a whole tier. -/
structure Scale where
  size : Count
  size_pos : 0 < size
deriving DecidableEq

namespace Scale

/-- The scale of the given size; there is none of size zero. -/
def ofCount? (n : Count) : Option Scale := if h : 0 < n then some ⟨n, h⟩ else none

/-- Four decimal digits. -/
def tenThousand : Scale := ⟨10000, by decide⟩

instance : Inhabited Scale := ⟨tenThousand⟩

/-- The size as a double, which holds it exactly. -/
def toFloat (s : Scale) : Float := s.size.toFloat

/-- The weight of a single unit. -/
def minUnit (s : Scale) : Float := 1 / s.toFloat

/-- The count nearest to a unit weight, a half going up. -/
def encode (s : Scale) (unit : Float) : Count :=
  .ofNat (Magnitude.ofFloat (clampUnit unit * s.toFloat)).round

/-- The unit weight of a count; counts above the scale stand for the whole tier. -/
def decode (s : Scale) (n : Count) : Float := (min n s.size).toFloat / s.toFloat

/-- The unit weight nearest to the given one that a count stands for. -/
def roundUnit (s : Scale) (unit : Float) : Float := s.decode (s.encode unit)

end Scale

end TierBudget
