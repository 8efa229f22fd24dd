import TierBudget.Apportionment
import TierBudget.Proofs.Binary64.Order
import Mathlib.Algebra.Order.Floor.Semifield
/-!
# Values of weights

What the weights and scales of a tier stand for as rationals: a clamped weight always has a value
between `0` and `1` (`hasValue_clampUnit`) and is never less for a larger double
(`value_clampUnit_le`), the whole numbers read off a double are the floor and the rounding of its
value, and a decoded count is the double nearest to its part of the scale.
-/

namespace TierBudget

open Binary64

/-! ## Clamping -/

theorem Binary64.HasValue.clampUnit_eq_self {x : Float} {q : ℚ} (h : HasValue x q) (h₀ : 0 ≤ q)
    (h₁ : q ≤ 1) : clampUnit x = x := by
  have hlow : ¬ x < 0 := fun hlt => absurd ((h.lt_iff hasValue_zero).1 hlt) (not_lt.2 h₀)
  have hhigh : ¬ 1 < x := fun hlt => absurd ((hasValue_one.lt_iff h).1 hlt) (not_lt.2 h₁)
  rw [clampUnit, h.isNaN_eq_false, if_neg Bool.false_ne_true, if_neg hlow, if_neg hhigh]

/-- Clamping a finite double clamps its value. -/
theorem Binary64.HasValue.clamped {x : Float} {q : ℚ} (h : HasValue x q) :
    HasValue (clampUnit x) (max 0 (min q 1)) := by
  simp only [clampUnit, h.isNaN_eq_false, Bool.false_eq_true, if_false,
    h.lt_iff hasValue_zero, hasValue_one.lt_iff h]
  split_ifs with hlow hhigh
  · rw [max_eq_left (min_le_of_left_le hlow.le)]
    exact hasValue_zero
  · rw [min_eq_right hhigh.le, max_eq_right zero_le_one]
    exact hasValue_one
  · rw [min_eq_left (not_lt.1 hhigh), max_eq_right (not_lt.1 hlow)]
    exact h

theorem clampUnit_of_nan {x : Float} (h : x.toModel.unpack = .notANumber) : clampUnit x = 0 :=
  if_pos (by
    change x.toModel.unpack.isNaN = true
    rw [h]
    rfl)

theorem clampUnit_of_lowest {x : Float} (h : x.toModel.unpack = .infinity .negative) :
    clampUnit x = 0 := by
  have hlt : x < 0 := (lt_iff_unpack x 0).2 (by rw [h, unpack_zero]; rfl)
  rw [clampUnit, isNaN_eq_false_of_infinity h, if_neg Bool.false_ne_true, if_pos hlt]

theorem clampUnit_of_highest {x : Float} (h : x.toModel.unpack = .infinity .positive) :
    clampUnit x = 1 := by
  have hlow : ¬ x < 0 := fun hlt => by
    rw [lt_iff_unpack, h, unpack_zero] at hlt
    exact absurd hlt (by decide)
  have hgt : 1 < x := (lt_iff_unpack 1 x).2 (by rw [h, unpack_one]; rfl)
  rw [clampUnit, isNaN_eq_false_of_infinity h, if_neg Bool.false_ne_true, if_neg hlow, if_pos hgt]

/-- **Whatever the double, its clamped weight is a number between `0` and `1`.** -/
theorem hasValue_clampUnit (x : Float) :
    HasValue (clampUnit x) (value (clampUnit x)) ∧ 0 ≤ value (clampUnit x) ∧
      value (clampUnit x) ≤ 1 := by
  suffices h : ∃ q, HasValue (clampUnit x) q ∧ 0 ≤ q ∧ q ≤ 1 by
    obtain ⟨q, h, hq⟩ := h
    rw [h.value_eq]
    exact ⟨h, hq⟩
  rcases value_cases x with hnan | ⟨s, hinf⟩ | ⟨q, hq⟩
  · exact ⟨0, clampUnit_of_nan hnan ▸ hasValue_zero, le_rfl, zero_le_one⟩
  · cases s with
    | negative => exact ⟨0, clampUnit_of_lowest hinf ▸ hasValue_zero, le_rfl, zero_le_one⟩
    | positive => exact ⟨1, clampUnit_of_highest hinf ▸ hasValue_one, zero_le_one, le_rfl⟩
  · exact ⟨_, hq.clamped, le_max_left _ _, max_le zero_le_one (min_le_right _ _)⟩

/-- **Clamping keeps the order of doubles**, the infinities included. -/
theorem value_clampUnit_le {x y : Float} (h : x ≤ y) :
    value (clampUnit x) ≤ value (clampUnit y) := by
  rcases cases_of_le h with hlow | hhigh | ⟨p, q, hp, hq, hpq⟩
  · rw [clampUnit_of_lowest hlow, hasValue_zero.value_eq]
    exact (hasValue_clampUnit y).2.1
  · rw [clampUnit_of_highest hhigh, hasValue_one.value_eq]
    exact (hasValue_clampUnit x).2.2
  · rw [hp.clamped.value_eq, hq.clamped.value_eq]
    exact max_le_max_left 0 (min_le_min_right 1 hpq)

/-! ## Whole numbers -/

theorem roundDiv_up {num den : ℕ} (h : 0 < den) :
    roundDiv .up num den = (2 * num + den) / (2 * den) := by
  have hmod := Nat.mod_lt num h
  have hdiv := Nat.div_add_mod num den
  unfold roundDiv
  symm
  rcases hc : compare (2 * (num % den)) den with _ | _ | _
  · have := Nat.compare_eq_lt.1 hc
    exact Nat.div_eq_of_lt_le (by dsimp only; linarith [(num % den).zero_le])
      (by dsimp only; linarith)
  · have := Nat.compare_eq_eq.1 hc
    exact Nat.div_eq_of_lt_le (by simp only [Tie.goesUp, if_true]; linarith)
      (by simp only [Tie.goesUp, if_true]; linarith)
  · have := Nat.compare_eq_gt.1 hc
    exact Nat.div_eq_of_lt_le (by dsimp only; linarith) (by dsimp only; linarith)

theorem Binary64.HasValue.num_div_den {x : Float} {q : ℚ} (h : HasValue x q) :
    ((Magnitude.ofFloat x).num : ℚ) / (Magnitude.ofFloat x).den = |q| := by
  unfold HasValue at h
  unfold Magnitude.ofFloat
  generalize x.toModel.unpack = u at h
  cases h with
  | zero s => simp [Magnitude.num]
  | finite s m e hm =>
    have hpos : 0 ≤ (m : ℚ) * 2 ^ e := mul_nonneg (Nat.cast_nonneg m) (two_zpow_pos e).le
    have habs : |sgn s * ((m : ℚ) * 2 ^ e)| = m * 2 ^ e := by
      cases s <;> simp [sgn, abs_of_nonneg hpos]
    rw [habs, Magnitude.num, Magnitude.den]
    rcases le_total 0 e with he | he
    · obtain ⟨k, rfl⟩ := Int.eq_ofNat_of_zero_le he
      simp
    · obtain ⟨k, hk⟩ := Int.eq_ofNat_of_zero_le (neg_nonneg.2 he)
      obtain rfl : e = -k := by omega
      simp [div_eq_mul_inv]

/-- The floor of a double is that of its value. -/
theorem Binary64.HasValue.floor_eq {x : Float} {q : ℚ} (h : HasValue x q) (h₀ : 0 ≤ q) :
    (Magnitude.ofFloat x).floor = ⌊q⌋₊ := by
  rw [Magnitude.floor, ← Nat.floor_div_eq_div (K := ℚ), h.num_div_den, abs_of_nonneg h₀]

/-- Rounding a double rounds its value, a half going up. -/
theorem Binary64.HasValue.round_eq {x : Float} {q : ℚ} (h : HasValue x q) (h₀ : 0 ≤ q) :
    (Magnitude.ofFloat x).round = ⌊q + 1 / 2⌋₊ := by
  have hden : (0 : ℚ) < (Magnitude.ofFloat x).den := by
    exact_mod_cast (Magnitude.ofFloat x).den_pos
  have hq := h.num_div_den
  rw [abs_of_nonneg h₀, div_eq_iff hden.ne'] at hq
  rw [Magnitude.round, roundDiv_up (Magnitude.ofFloat x).den_pos, ← Nat.floor_div_eq_div (K := ℚ)]
  congr 1
  push_cast
  rw [hq]
  field_simp

/-! ## Counts -/

namespace Scale

theorem size_toNat_pos (s : Scale) : 0 < s.size.toNat := s.size_pos

theorem hasValue_size (s : Scale) : HasValue s.toFloat s.size.toNat := hasValue_toFloat s.size

theorem size_ne_zero (s : Scale) : (s.size.toNat : ℚ) ≠ 0 := by
  exact_mod_cast s.size_toNat_pos.ne'

/-- A decoded count is the double nearest to its part of the scale. -/
theorem hasValue_decode (s : Scale) (n : Count) (h : n ≤ s.size) :
    HasValue (s.decode n) (nearest (n.toNat / s.size.toNat)) := by
  have hle : (n.toNat : ℚ) ≤ s.size.toNat := by exact_mod_cast h
  rw [decode, show min n s.size = n from if_pos h]
  have hone : (n.toNat : ℚ) / s.size.toNat ≤ 1 := by
    rwa [div_le_one (by exact_mod_cast s.size_toNat_pos)]
  refine (hasValue_toFloat n).div s.hasValue_size s.size_ne_zero (abs_le_of_le_two_pow ?_)
  rw [abs_of_nonneg (by positivity)]
  exact hone.trans (by norm_num)

/-- The whole tier is decoded exactly. -/
theorem decode_size (s : Scale) : s.decode s.size = 1 := by
  have h := s.hasValue_decode s.size (UInt32.le_refl _)
  rw [div_self s.size_ne_zero, nearest_eq_self (by simpa using isDouble_natCast (n := 1))] at h
  exact h.eq_of_ne_zero hasValue_one one_ne_zero

end Scale

end TierBudget
