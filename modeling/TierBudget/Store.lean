import TierBudget.Catalogue
import TierBudget.Session
/-!
# The store

The store owns the committed weights. It keeps raw entries per tier, which may come from elsewhere,
and applies commit plans to them: `Store.put` drops the removed endpoints, sets the weights of
the updated ones where they stand and adds new ones at the end.
-/

namespace TierBudget

/-- A store in memory. -/
structure Store where
  /-- The scale in which the counts of plans are read. -/
  scale : Scale
  tiers : Catalogue (List (RawEntry String))

namespace Store

/-- A store without tiers. -/
def new (scale : Scale) : Store := ⟨scale, .empty⟩

instance : Inhabited Store := ⟨new default⟩

/-- How the store is called. -/
def name : String := "memory"

/-- Replaces the entries of a tier. -/
def seed (s : Store) (tierId : String) (entries : List (RawEntry String)) : Store :=
  { s with tiers := s.tiers.insert tierId entries }

/-- The entries of a tier in stored order. -/
def load (s : Store) (tierId : String) : Except StoreError (List (RawEntry String)) :=
  match s.tiers.get? tierId with
  | some entries => .ok entries
  | none => .error (.notFound tierId)

/-- Gives the first entry of an id its weight, or adds one at the end. -/
def upsert (id : String) (weight : RawWeight) : List (RawEntry String) → List (RawEntry String)
  | [] => [⟨id, weight⟩]
  | e :: rest => if e.id = id then ⟨id, weight⟩ :: rest else e :: upsert id weight rest

/-- Entries after a plan. -/
def applyPlan (scale : Scale) (plan : CommitPlan) (entries : List (RawEntry String)) :
    List (RawEntry String) :=
  plan.updates.foldl (fun es u => upsert u.id ⟨scale.decode u.count, some .fraction⟩ es)
    (entries.filter fun e => !plan.removed.contains e.id)

/-- Applies a plan to its tier, which is created if it is not stored yet. -/
def put (s : Store) (plan : CommitPlan) : Store :=
  s.seed plan.tierId (applyPlan s.scale plan ((s.tiers.get? plan.tierId).getD []))

end Store

end TierBudget
