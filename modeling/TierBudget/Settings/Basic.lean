import TierBudget.Policy
/-!
# Settings

What a deployment can choose: the policy of every rebalancing, and whether tiers with endpoints
without weight may be committed.
-/

namespace TierBudget

/-- The settings of a deployment. -/
structure Settings where
  policy : Policy
  /-- Whether tiers with endpoints without weight are kept from being committed. -/
  requireSettled : Bool
deriving DecidableEq

/-- Four decimal digits, a tolerance of a millionth, and settled tiers only. -/
def Settings.defaults : Settings := ⟨default, true⟩

instance : Inhabited Settings := ⟨Settings.defaults⟩

end TierBudget
