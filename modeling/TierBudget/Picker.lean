import TierBudget.Tier
/-!
# Picking endpoints

A `Picker` lays the endpoints of a tier side by side, each as wide as its count. A point then
belongs to one endpoint, and endpoints without weight own none.
-/

namespace TierBudget

/-- Endpoints with the exclusive upper bounds of the points they own. -/
structure Picker where
  bounds : List (String × Count)
deriving DecidableEq

namespace Picker

/-- The endpoints from `start` on, unless a bound leaves the 32-bit range. -/
def boundsFrom (start : Count) : List (FixedEntry String) → Option (List (String × Count))
  | [] => some []
  | e :: rest => do
    let stop ← Count.add? start e.count
    return (e.id, stop) :: (← boundsFrom stop rest)

/-- The picker of a tier, unless the sum of its counts leaves the 32-bit range. -/
def ofTier? (p : Policy) (t : Tier) : Option Picker :=
  (boundsFrom 0 (t.fixedWeights p)).map Picker.mk

/-- How many points there are: the scale, or none in an empty tier. -/
def total (k : Picker) : Count := (k.bounds.getLast?.map (·.2)).getD 0

/-- Whether no endpoint owns a point. -/
def isEmpty (k : Picker) : Bool := k.total == 0

/-- The endpoint that owns a point. -/
def pickAt (k : Picker) (point : Count) : Option String :=
  if k.total ≤ point then none else (k.bounds.find? (point < ·.2)).map (·.1)

/-- The endpoint that a drawn number falls on. -/
def pick (k : Picker) (draw : Nat) : Option String :=
  if k.isEmpty then none else k.pickAt (.ofNat (draw % k.total.toNat))

end Picker

end TierBudget
