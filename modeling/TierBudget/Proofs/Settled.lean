import TierBudget.Proofs.Encoding
import TierBudget.Proofs.Tiers
/-!
# Settled tiers

Three computations look at the weights of a tier that is to be committed: the check whether it is
settled encodes every unit by itself and adds the counts up, the report of the vacated endpoints
compares the units with zero, and the plan apportions them. They agree on a tier whose units are
decoded from counts that add up to the scale (`Tier.OnGrid`), which is how every edit leaves a tier
(`Session.Edit.onGrid_apply`). There the endpoints that are reported are those whose count is zero
(`Tier.OnGrid.vacated_eq`), and the tier is settled if there are none
(`Tier.OnGrid.isSettled?_eq`).
-/

namespace TierBudget

open Binary64

/-! ## Sums of counts -/

namespace Count

theorem exists_foldlM_add? {cs : List Count} {acc : Count}
    (h : acc.toNat + (cs.map UInt32.toNat).sum < UInt32.size) :
    ∃ c, cs.foldlM add? acc = some c ∧ c.toNat = acc.toNat + (cs.map UInt32.toNat).sum := by
  induction cs generalizing acc with
  | nil => exact ⟨acc, rfl, rfl⟩
  | cons a cs ih =>
    rw [List.map_cons, List.sum_cons, ← Nat.add_assoc] at h ⊢
    obtain ⟨b, hb, hnat⟩ := exists_add? ((Nat.le_add_right _ _).trans_lt h)
    rw [← hnat] at h ⊢
    obtain ⟨c, hc, hsum⟩ := ih h
    exact ⟨c, by rw [List.foldlM_cons, hb]; exact hc, hsum⟩

/-- A sum that stays in the 32-bit range is found. -/
theorem exists_sum? {cs : List Count} (h : (cs.map UInt32.toNat).sum < UInt32.size) :
    ∃ c, sum? cs = some c ∧ c.toNat = (cs.map UInt32.toNat).sum := by
  have hzero : (0 : Count).toNat + (cs.map UInt32.toNat).sum < UInt32.size := by
    rwa [UInt32.toNat_zero, Nat.zero_add]
  obtain ⟨c, hc, hsum⟩ := exists_foldlM_add? hzero
  exact ⟨c, hc, by rw [hsum, UInt32.toNat_zero, Nat.zero_add]⟩

end Count

namespace Tier

variable {p : Policy} {t t' : Tier} {id : String}

/-! ## Endpoints without weight -/

theorem isBudget_fixedWeights (p : Policy) (h : t.entries ≠ []) :
    p.IsBudget t.ids (t.fixedWeights p) := p.isBudget_toFixed h

/-- The endpoints whose count is zero. -/
def weightless (p : Policy) (t : Tier) : List String :=
  ((t.fixedWeights p).filter (·.count = 0)).map FixedEntry.id

/-- A lone endpoint has the whole scale. -/
theorem fixedWeights_lone (p : Policy) {e : Entry String} (h : t.entries = [e]) :
    t.fixedWeights p = [⟨e.id, p.scale.size⟩] := by
  have hb := isBudget_fixedWeights p (t := t) (by simp [h])
  rw [ids, h, List.map_singleton] at hb
  exact hb.eq_lone

theorem weightless_of_length_le_one (p : Policy) (h : t.entries.length ≤ 1) :
    t.weightless p = [] := by
  rcases Nat.le_one_iff_eq_zero_or_eq_one.1 h with h₀ | h₁
  · rw [weightless, fixedWeights, List.length_eq_zero_iff.1 h₀]
    rfl
  · obtain ⟨e, he⟩ := List.length_eq_one_iff.1 h₁
    have hsize : p.scale.size ≠ 0 := fun h₀ => absurd p.scale.size_toNat_pos (by simp [h₀])
    simp [weightless, fixedWeights_lone p he, hsize]

theorem weightless_eq_nil_iff_counts :
    t.weightless p = [] ↔ ∀ w ∈ t.fixedWeights p, 1 ≤ w.count := by
  rw [weightless, List.map_eq_nil_iff, List.filter_eq_nil_iff]
  refine forall₂_congr fun w _ => ?_
  rw [decide_eq_true_eq, UInt32.le_iff_toNat_le, UInt32.toNat_one, ← UInt32.toNat_inj,
    UInt32.toNat_zero, Nat.one_le_iff_ne_zero]

theorem weightless_eq_nil_iff : t.weightless p = [] ↔
    t.entries.length ≤ 1 ∨ ∀ w ∈ t.fixedWeights p, 1 ≤ w.count := by
  constructor
  · exact fun h => .inr (weightless_eq_nil_iff_counts.1 h)
  · rintro (h | h)
    · exact weightless_of_length_le_one p h
    · exact weightless_eq_nil_iff_counts.2 h

/-! ## Units on the grid -/

/-- The units of a tier are decoded from counts that add up to the scale. -/
def OnGrid (p : Policy) (t : Tier) : Prop := t.entries ≠ [] → p.IsUnitBudget t.ids t.entries

theorem onGrid_of_isUnitBudget {ids : List String} (h : p.IsUnitBudget ids t.entries) :
    t.OnGrid p := fun _ => by
  rwa [Tier.ids, h.map_id]

theorem onGrid_normalize {entries : List (Entry String)} (h : t.entries = p.normalize entries) :
    t.OnGrid p := by
  by_cases hnil : entries = []
  · rw [hnil, Policy.normalize_nil] at h
    exact fun hne => absurd h hne
  · exact onGrid_of_isUnitBudget (h ▸ p.isUnitBudget_normalize hnil)

theorem onGrid_attach (h : t.attach p id = .ok t') : t'.OnGrid p := by
  unfold attach at h
  split at h
  · cases h
  · cases h
    exact onGrid_of_isUnitBudget (p.isUnitBudget_evenSplit (by simp))

theorem onGrid_detach (h : t.detach p id = .ok t') : t'.OnGrid p := by
  have hmem := (ids_detach h).1
  rw [detach, p.detach_of_mem hmem] at h
  cases h
  exact onGrid_normalize rfl

theorem onGrid_setWeight {unit : Float} (h : t.setWeight p id unit = .ok t') : t'.OnGrid p := by
  have hmem := (ids_setWeight h).1
  unfold setWeight at h
  split at h
  · cases h
  · cases h
    exact onGrid_of_isUnitBudget (p.isUnitBudget_rebalance unit hmem)

namespace OnGrid

/-- The units are those of the counts that go over the wire. -/
theorem ofFixed_fixedWeights (h : t.OnGrid p)
    (hn : t.entries.length * p.scale.size.toNat ≤ 2 ^ 50) :
    p.ofFixed (t.fixedWeights p) = t.entries := by
  by_cases hnil : t.entries = []
  · rw [fixedWeights, hnil]
    rfl
  · obtain ⟨fixed, hb, he⟩ := h hnil
    have hlen : fixed.length = t.entries.length := by rw [he, Policy.ofFixed, List.length_map]
    rw [fixedWeights, he, Policy.toFixed_ofFixed hb (by rwa [hlen])]

/-- **Encoded one by one, the units give the counts that go over the wire.** -/
theorem map_encode (h : t.OnGrid p) (hn : t.entries.length * p.scale.size.toNat ≤ 2 ^ 50) :
    (t.entries.map fun e => p.scale.encode e.unit) =
      (t.fixedWeights p).map FixedEntry.count := by
  rw [← h.ofFixed_fixedWeights hn, Policy.ofFixed, List.map_map]
  exact List.map_congr_left fun w hw => p.scale.encode_decode (count_le_size hw)

/-- **The vacated endpoints are those without a count.** -/
theorem vacated_eq (h : t.OnGrid p) (hn : t.entries.length * p.scale.size.toNat ≤ 2 ^ 50) :
    t.vacated = t.weightless p := by
  unfold vacated
  split
  · next hlt => exact (weightless_of_length_le_one p (by omega)).symm
  · rw [← h.ofFixed_fixedWeights hn, Policy.ofFixed, List.filter_map, List.map_map, weightless]
    congr 1
    refine List.filter_congr fun w hw => ?_
    exact decide_eq_decide.2 (p.scale.decode_le_zero_iff (count_le_size hw))

/-- The checked sum of the counts is the scale, however many there are. -/
theorem sum?_encode (h : t.OnGrid p) (hne : t.entries ≠ []) :
    Count.sum? (t.entries.map fun e => p.scale.encode e.unit) = some p.scale.size := by
  obtain ⟨fixed, hb, he⟩ := h hne
  have hcounts : (t.entries.map fun e => p.scale.encode e.unit) =
      fixed.map FixedEntry.count := by
    rw [he, Policy.ofFixed, List.map_map]
    exact List.map_congr_left fun w hw => p.scale.encode_decode (hb.count_le_size hw)
  have hsum : ((fixed.map FixedEntry.count).map UInt32.toNat).sum = p.scale.size.toNat := by
    rw [List.map_map]
    exact hb.sum_eq
  obtain ⟨c, hc, hnat⟩ := Count.exists_sum? (hsum.trans_lt p.scale.size.toNat_lt)
  rw [hcounts, hc, UInt32.toNat_inj.1 (hnat.trans hsum)]

/-- The check whether a tier on the grid is settled has an answer. -/
theorem exists_isSettled? (h : t.OnGrid p) : ∃ settled, t.isSettled? p.scale = some settled := by
  unfold isSettled?
  split
  · exact ⟨_, rfl⟩
  · exact ⟨_, rfl⟩
  · next hne _ =>
    dsimp only
    rw [h.sum?_encode hne]
    exact ⟨_, rfl⟩

/-- **A tier on the grid is settled if no endpoint is without a count.** -/
theorem isSettled?_eq (h : t.OnGrid p) (hn : t.entries.length * p.scale.size.toNat ≤ 2 ^ 50) :
    t.isSettled? p.scale = some (decide (t.weightless p = [])) := by
  unfold isSettled?
  split
  · next hnil => rw [weightless_of_length_le_one p (by simp [hnil]), decide_eq_true rfl]
  · next e hlone =>
    rw [weightless_of_length_le_one p (by simp [hlone]), decide_eq_true rfl]
    have hunits := h.ofFixed_fixedWeights hn
    rw [fixedWeights_lone p hlone, hlone, Policy.ofFixed, List.map_singleton,
      p.scale.decode_size] at hunits
    rw [← List.singleton_inj.1 hunits]
    exact congrArg some ((hasValue_one.beq_iff hasValue_one).2 rfl)
  · next hne _ =>
    dsimp only
    rw [h.sum?_encode hne, Option.map_some, h.map_encode hn]
    congr 1
    rw [Bool.eq_iff_iff, decide_eq_true_eq, weightless_eq_nil_iff_counts]
    simp

end OnGrid

end Tier

/-- **Every edit leaves the units on the grid**, wherever they were before. -/
theorem Session.Edit.onGrid_apply {p : Policy} {t t' : Tier} {e : Edit}
    (h : e.apply p t = .ok t') : t'.OnGrid p := by
  cases e with
  | weight id unit => exact Tier.onGrid_setWeight h
  | attach id => exact Tier.onGrid_attach h
  | detach id => exact Tier.onGrid_detach h

end TierBudget
