/-!
# Counts

Counts are 32-bit words, as they go over the wire. Sums of counts are checked: `Count.sum?` has no
value when the sum leaves the 32-bit range.
-/

namespace TierBudget

/-- A number of fixed-point units. -/
abbrev Count := UInt32

namespace Count

/-- The sum of two counts, unless it leaves the 32-bit range. -/
def add? (a b : Count) : Option Count :=
  if a.toNat + b.toNat < UInt32.size then some (a + b) else none

/-- The sum of a list of counts, unless a partial sum leaves the 32-bit range. -/
def sum? (cs : List Count) : Option Count := cs.foldlM add? 0

theorem toNat_of_add? {a b c : Count} (h : add? a b = some c) : c.toNat = a.toNat + b.toNat := by
  unfold add? at h
  split at h
  · cases h
    rw [UInt32.toNat_add]
    exact Nat.mod_eq_of_lt (by assumption)
  · cases h

theorem exists_add? {a b : Count} (h : a.toNat + b.toNat < UInt32.size) :
    ∃ c, add? a b = some c ∧ c.toNat = a.toNat + b.toNat := by
  have hadd : add? a b = some (a + b) := if_pos h
  exact ⟨a + b, hadd, toNat_of_add? hadd⟩

end Count

end TierBudget
