import TierBudget.Picker
import TierBudget.Catalogue
import TierBudget.Random
import TierBudget.Report
/-!
# Simulations

A simulation picks an endpoint for each of a number of requests, by numbers of any generator, and
counts how often each id is picked. If a single id owns all points, every request falls on it and
nothing is drawn.
-/

namespace TierBudget

namespace Picker

/-- The ids that own points, once for each of their intervals. -/
def owners (k : Picker) : List String :=
  (k.bounds.zip (0 :: k.bounds.map (·.2))).filterMap fun ((id, stop), start) =>
    if start < stop then some id else none

/-- Adds a number of picks to the numbers of picks by id. -/
def tally (k : Picker) (g : Generator) : Nat → g.State → Catalogue Nat → Catalogue Nat
  | 0, _, hits => hits
  | n + 1, state, hits =>
    let (drawn, state) := g.draw state
    tally k g n state <|
      match k.pick drawn with
      | some id => hits.insert id ((hits.get? id).getD 0 + 1)
      | none => hits

/-- How often each id is picked by a number of requests. -/
def hits (k : Picker) (requests : Count) (g : Generator) (seed : UInt64) : Catalogue Nat :=
  match k.owners with
  | [] => .empty
  | id :: others =>
    if others.all (· == id) then .ofList [(id, requests.toNat)]
    else k.tally g requests.toNat (g.ofSeed seed) .empty

end Picker

/-- The share of the requests that fell on an endpoint; no share if there are no requests. -/
def observedShare (hits : Nat) (requests : Count) : Float :=
  if requests = 0 then 0 else .ofNat hits / requests.toFloat

/-- The table of a simulation: an endpoint's weight beside the share of the requests it got. -/
def simulationTable (t : Tier) (requests : Count) (hits : Catalogue Nat) : Text.Table where
  header := ["Endpoint", "Weight", "Observed", "Requests"]
  rows := t.entries.map fun e =>
    let n := (hits.get? e.id).getD 0
    [e.id, percentage e.unit, percentage (observedShare n requests), decimalText n]

end TierBudget
