import TierBudget.Policy
import TierBudget.Text.Quoted
/-!
# Tiers

A tier is one failover rank: endpoints in order, each with its unit weight. Every operation goes
through a `Policy`, so the counts of a tier that was built here always add up to the scale. Edits
that can fail return the tier they lead to or a `TierError`.
-/

namespace TierBudget

/-- Why a store refuses. -/
inductive StoreError where
  | notFound (tierId : String)
  | rejected (reason : String)
  /-- A snapshot that does not read. -/
  | malformed
deriving DecidableEq

/-- The text of a store error. -/
def StoreError.message : StoreError → String
  | .notFound id => s!"Not found: {id}"
  | .rejected reason => s!"Rejected: {reason}"
  | .malformed => "Serialization error"

/-- Why an operation on a tier, a session or a board fails. -/
inductive TierError where
  | unknownTier (id : String)
  | unknownEndpoint (id : String)
  | duplicateEndpoint (id : String)
  | notDirty
  | commitInFlight
  /-- The endpoints without weight that keep a tier from being committed. -/
  | vacatedEndpoints (ids : List String)
  | store (error : StoreError)
  /-- A sum of counts that leaves the 32-bit range. -/
  | countOverflow
deriving DecidableEq

/-- The text of a tier error. -/
def TierError.message : TierError → String
  | .unknownTier id => s!"Unknown tier: {id}"
  | .unknownEndpoint id => s!"Endpoint {id} is not attached to this tier"
  | .duplicateEndpoint id => s!"Endpoint {id} is already attached to this tier"
  | .notDirty => "Tier has no staged changes"
  | .commitInFlight => "A commit is already in flight for this tier"
  | .vacatedEndpoints ids =>
    s!"Zero-weight endpoints must be removed before committing: {Text.quoteList ids}"
  | .store e => s!"Store error: {e.message}"
  | .countOverflow => "attempt to add with overflow"

/-- A failover rank and the weights of its endpoints. -/
structure Tier where
  id : String
  entries : List (Entry String)
deriving DecidableEq

namespace Tier

/-- A tier without endpoints. -/
def new (id : String) : Tier := ⟨id, []⟩

/-- A tier of the given unit weights, normalized. -/
def ofEntries (p : Policy) (id : String) (entries : List (Entry String)) : Tier :=
  ⟨id, p.normalize entries⟩

/-- A tier of stored weights, which may be fractions or percentages and need not fit together. A
lone endpoint holds the whole. -/
def ofStored (p : Policy) (id : String) (stored : List (RawEntry String)) : Tier :=
  match stored with
  | [e] => ⟨id, p.evenSplit [e.id]⟩
  | _ => ⟨id, p.ofRaw stored⟩

@[simp] theorem id_ofStored (p : Policy) (id : String) (stored : List (RawEntry String)) :
    (ofStored p id stored).id = id := by
  unfold ofStored
  split <;> rfl

/-- The endpoints in order. -/
def ids (t : Tier) : List String := t.entries.map Entry.id

/-- Whether an endpoint is attached. -/
def contains (t : Tier) (id : String) : Bool := t.ids.contains id

/-- The weight of an endpoint. -/
def unitOf? (t : Tier) (id : String) : Option Float :=
  (t.entries.find? (·.id = id)).map Entry.unit

/-- Attaches an endpoint and splits the tier evenly. -/
def attach (p : Policy) (t : Tier) (id : String) : Except TierError Tier :=
  if t.contains id then .error (.duplicateEndpoint id)
  else .ok { t with entries := p.evenSplit (t.ids ++ [id]) }

/-- Detaches an endpoint and hands its share to the others. -/
def detach (p : Policy) (t : Tier) (id : String) : Except TierError Tier :=
  match p.detach t.entries id with
  | some entries => .ok { t with entries }
  | none => .error (.unknownEndpoint id)

/-- Sets the weight of an endpoint; the others keep their proportions. -/
def setWeight (p : Policy) (t : Tier) (id : String) (unit : Float) : Except TierError Tier :=
  match p.rebalance t.entries id unit with
  | [] => .error (.unknownEndpoint id)
  | entries => .ok { t with entries }

/-- The endpoints without weight, if there are at least two endpoints. -/
def vacated (t : Tier) : List String :=
  if t.entries.length < 2 then [] else (t.entries.filter (·.unit ≤ 0)).map Entry.id

/-- Whether the tier can be stored as it is: a lone endpoint holds exactly the whole, and the
counts of several, rounded one by one, add up to the scale and are none of them zero. No answer if
the sum of the counts leaves the 32-bit range. -/
def isSettled? (t : Tier) (scale : Scale) : Option Bool :=
  match t.entries with
  | [] => some true
  | [e] => some (e.unit == 1)
  | entries =>
    let counts := entries.map fun e => scale.encode e.unit
    (Count.sum? counts).map fun total => total == scale.size && counts.all (1 ≤ ·)

/-- The counts of the endpoints. -/
def fixedWeights (p : Policy) (t : Tier) : List (FixedEntry String) := p.toFixed t.entries

end Tier

end TierBudget
