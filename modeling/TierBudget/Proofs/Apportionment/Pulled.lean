import Mathlib.Algebra.BigOperators.Fin
import Mathlib.Algebra.Order.BigOperators.Group.Finset
import Mathlib.Tactic.Linarith
/-!
# Whole changes under a pull

Counts are to change by parts of a unit: one of them, the target, is to lose `δ`, a little more than
a unit at most, and the others are to share it. The changes that are made are whole, add up to
nothing, and no two of them are further from what they are to be than a unit, as it is with units
that are nowhere better placed (`Apportionment.Pulled`). If the target and one other count are to
change by more than a unit in all, then one unit goes from the target to one other count, and
nothing else changes (`Apportionment.Pulled.exists_change`).
-/

namespace TierBudget.Apportionment

/-- Whole changes that add up to nothing and follow a pull of size `δ`, which `i` is to lose and the
others are to get in the parts `r`: no two of them are further from what they are to change by than
a unit and `η`. -/
structure Pulled {κ : Type} [Fintype κ] [DecidableEq κ] (D : κ → ℤ) (r : κ → ℚ) (i : κ)
    (δ η : ℚ) : Prop where
  sum_eq : ∑ j, D j = 0
  part_nonneg : ∀ j ≠ i, 0 ≤ r j
  sum_part : ∑ j ∈ Finset.univ.erase i, r j = 1
  nonneg : 0 ≤ δ
  le : δ ≤ 11 / 10
  blur_le : η ≤ 1 / 10
  target : ∀ j ≠ i, |δ * (1 + r j) + D i - D j| ≤ 1 + η
  others : ∀ j ≠ i, ∀ l ≠ i, δ * (r j - r l) - D j + D l ≤ 1 + η

namespace Pulled

variable {κ : Type} [Fintype κ] [DecidableEq κ] {D : κ → ℤ} {r : κ → ℚ} {i : κ} {δ η : ℚ}
  (h : Pulled D r i δ η)
include h

theorem part_le_one {j : κ} (hj : j ≠ i) : r j ≤ 1 := by
  rw [← h.sum_part]
  exact Finset.single_le_sum (fun l hl => h.part_nonneg l (Finset.ne_of_mem_erase hl))
    (Finset.mem_erase.2 ⟨hj, Finset.mem_univ j⟩)

theorem add_sum_others : D i + ∑ j ∈ Finset.univ.erase i, D j = 0 := by
  rw [Finset.add_sum_erase _ _ (Finset.mem_univ i), h.sum_eq]

/-- At most one of the others has more than three fifths. -/
theorem sum_ite_le_one : ∑ j ∈ Finset.univ.erase i, (if 3 / 5 < r j then 1 else 0 : ℤ) ≤ 1 := by
  have hle : ∑ j ∈ Finset.univ.erase i, (if 3 / 5 < r j then 1 else 0 : ℚ) ≤
      ∑ j ∈ Finset.univ.erase i, 5 / 3 * r j := by
    refine Finset.sum_le_sum fun j hj => ?_
    have := h.part_nonneg j (Finset.ne_of_mem_erase hj)
    split <;> linarith
  rw [← Finset.mul_sum, h.sum_part] at hle
  have hlt : ((∑ j ∈ Finset.univ.erase i, (if 3 / 5 < r j then 1 else 0 : ℤ) : ℤ) : ℚ) < 2 := by
    push_cast
    linarith
  have : ∑ j ∈ Finset.univ.erase i, (if 3 / 5 < r j then 1 else 0 : ℤ) < 2 := by exact_mod_cast hlt
  omega

/-- A change that is hardly more than the part is at most one, and one only for more than three
fifths. -/
theorem le_ite_of_le {j : κ} (hj : j ≠ i) (hle : (D j : ℚ) ≤ 1 / 4 + δ * r j) :
    D j ≤ if 3 / 5 < r j then 1 else 0 := by
  have hpart := h.part_le_one hj
  have hmul : δ * r j ≤ 11 / 10 * r j := mul_le_mul_of_nonneg_right h.le (h.part_nonneg j hj)
  split
  · have hlt : (D j : ℚ) < 2 := by linarith
    have : D j < 2 := by exact_mod_cast hlt
    omega
  · have hlt : (D j : ℚ) < 1 := by linarith
    have : D j < 1 := by exact_mod_cast hlt
    omega

/-- The target does not lose two units: the others would not gain as many. -/
theorem neg_one_le : -1 ≤ D i := by
  by_contra hlt
  have hi : (D i : ℚ) ≤ -2 := by exact_mod_cast (by omega : D i ≤ -2)
  have hle : ∑ j ∈ Finset.univ.erase i, D j ≤
      ∑ j ∈ Finset.univ.erase i, (if 3 / 5 < r j then 1 else 0 : ℤ) := by
    refine Finset.sum_le_sum fun j hj => ?_
    have hj := Finset.ne_of_mem_erase hj
    have hpair := (abs_le.1 (h.target j hj)).1
    exact h.le_ite_of_le hj (by linarith [h.le, h.blur_le])
  have hgain := h.sum_ite_le_one
  have hsum := h.add_sum_others
  omega

/-- Where the target loses, no other one does: the rest would not gain as much. -/
theorem others_nonneg (hi : D i ≤ -1) {l : κ} (hl : l ≠ i) : 0 ≤ D l := by
  by_contra hneg
  have hl' : (D l : ℚ) ≤ -1 := by exact_mod_cast (by omega : D l ≤ -1)
  have hl₀ : 0 ≤ δ * r l := mul_nonneg h.nonneg (h.part_nonneg l hl)
  have hlt : ∑ j ∈ Finset.univ.erase i, D j <
      ∑ j ∈ Finset.univ.erase i, (if 3 / 5 < r j then 1 else 0 : ℤ) := by
    refine Finset.sum_lt_sum (fun j hj => ?_) ⟨l, Finset.mem_erase.2 ⟨hl, Finset.mem_univ l⟩, ?_⟩
    · have hj := Finset.ne_of_mem_erase hj
      have hpair := h.others l hl j hj
      exact h.le_ite_of_le hj (by linarith [h.blur_le])
    · split <;> omega
  have hgain := h.sum_ite_le_one
  have hsum := h.add_sum_others
  omega

/-- If one of the others is further than a unit from the target, the target loses: else that one
would gain, and a third one would lose against the pull. -/
theorem le_neg_one {m : κ} (hm : m ≠ i) (hfar : 1 + η < δ * (1 + r m)) : D i ≤ -1 := by
  by_contra hlt
  have hpair := (abs_le.1 (h.target m hm)).2
  have hgt : (D i : ℚ) < D m := by linarith
  have hgt : D i < D m := by exact_mod_cast hgt
  have hsum := h.add_sum_others
  obtain ⟨l, hl, hneg⟩ : ∃ l ∈ Finset.univ.erase i, D l < 0 := by
    by_contra hno
    simp only [not_exists, not_and, not_lt] at hno
    have := Finset.single_le_sum hno (Finset.mem_erase.2 ⟨hm, Finset.mem_univ m⟩)
    omega
  have hl := Finset.ne_of_mem_erase hl
  have hl' : (D l : ℚ) ≤ -1 := by exact_mod_cast (by omega : D l ≤ -1)
  have hi : (0 : ℚ) ≤ D i := by exact_mod_cast (by omega : 0 ≤ D i)
  have hpair := (abs_le.1 (h.target l hl)).2
  have hl₀ : 0 ≤ δ * r l := mul_nonneg h.nonneg (h.part_nonneg l hl)
  have hm₁ : δ * r m ≤ δ * 1 := mul_le_mul_of_nonneg_left (h.part_le_one hm) h.nonneg
  linarith [h.blur_le]

/-- **If one of the others is further than a unit from the target, one unit goes from the target to
one other**, and nothing else changes. -/
theorem exists_change {m : κ} (hm : m ≠ i) (hfar : 1 + η < δ * (1 + r m)) :
    D i = -1 ∧ ∃ j ≠ i, D j = 1 ∧ ∀ k, k ≠ i → k ≠ j → D k = 0 := by
  have hi : D i = -1 := le_antisymm (h.le_neg_one hm hfar) h.neg_one_le
  have hall : ∀ l ∈ Finset.univ.erase i, 0 ≤ D l :=
    fun l hl => h.others_nonneg hi.le (Finset.ne_of_mem_erase hl)
  have hsum := h.add_sum_others
  obtain ⟨j, hj, hpos⟩ : ∃ j ∈ Finset.univ.erase i, 0 < D j := by
    by_contra hno
    simp only [not_exists, not_and, not_lt] at hno
    have := Finset.sum_nonpos hno
    omega
  have hsplit := Finset.add_sum_erase _ D hj
  have hrest : ∀ k ∈ (Finset.univ.erase i).erase j, 0 ≤ D k :=
    fun k hk => hall k (Finset.mem_of_mem_erase hk)
  have hnonneg := Finset.sum_nonneg hrest
  refine ⟨hi, j, Finset.ne_of_mem_erase hj, by omega, fun k hki hkj => ?_⟩
  exact (Finset.sum_eq_zero_iff_of_nonneg hrest).1 (by omega) k
    (Finset.mem_erase.2 ⟨hkj, Finset.mem_erase.2 ⟨hki, Finset.mem_univ k⟩⟩)

end Pulled

end TierBudget.Apportionment
