/-!
# Ranges of characters

A property of characters is given by the ranges of code points that have it, in ascending order.
-/

namespace TierBudget.Text

/-- Ranges of code points, both ends included. -/
abbrev Ranges := List (Nat × Nat)

/-- Whether one of the ranges holds a character. -/
def Ranges.hold (ranges : Ranges) (c : Char) : Bool :=
  ranges.any fun r => r.1 ≤ c.toNat && c.toNat ≤ r.2

end TierBudget.Text
