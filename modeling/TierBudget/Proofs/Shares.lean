import TierBudget.Policy
import TierBudget.Proofs.Apportionment.Cut
import TierBudget.Proofs.Binary64.Near
/-!
# Shares in proportion to weights

The shares of weights are the weights over their running sum (`exists_shares`). In units of a scale
each of them is a few roundings more than there are weights away from its exact part of the scale,
the weight over the `mass` of all weights, unless it is too small to matter (`abs_scaled_sub_le`).
The order of the weights is kept (`scaled_mono`).
-/

namespace TierBudget.Policy

open Binary64 Apportionment

/-! ## The sum of the weights -/

/-- What the clamped weights add up to. -/
def mass (units : List Float) : ℚ := (units.map fun u => value (clampUnit u)).sum

variable {units : List Float} {scale : Scale}

/-- The running sum of the clamped weights. -/
theorem exists_runningSum (hlen : units.length ≤ 2 ^ 51) :
    ∃ t, HasValue ((units.map clampUnit).foldl (· + ·) 0) t ∧ Near units.length t (mass units) ∧
      ∀ u ∈ units, value (clampUnit u) ≤ t :=
  exists_sum hlen fun u _ => hasValue_clampUnit u

/-! ## What becomes of a weight -/

/-- What a weight of value `v` is in units of a scale, divided by `t`. -/
def scaled (scale : Scale) (t v : ℚ) : ℚ := nearest (nearest (v / t) * scale.size.toNat)

@[simp] theorem scaled_zero (scale : Scale) (t : ℚ) : scaled scale t 0 = 0 := by simp [scaled]

theorem scaled_nonneg (scale : Scale) {t v : ℚ} (ht : 0 ≤ t) (hv : 0 ≤ v) :
    0 ≤ scaled scale t v :=
  nearest_nonneg (mul_nonneg (nearest_nonneg (div_nonneg hv ht)) (Nat.cast_nonneg _))

theorem scaled_mono (scale : Scale) {t v w : ℚ} (ht : 0 ≤ t) (h : v ≤ w) :
    scaled scale t v ≤ scaled scale t w :=
  nearest_mono (mul_le_mul_of_nonneg_right (nearest_mono (div_le_div_of_nonneg_right h ht))
    (Nat.cast_nonneg _))

/-- A quotient that is not tiny is rounded, and then its product with the size of the scale. -/
theorem near_scaled (scale : Scale) {t v : ℚ} (h : 2 ^ (-1000 : ℤ) ≤ v / t) :
    Near 2 (scaled scale t v) (v / t * scale.size.toNat) := by
  have hS : (1 : ℚ) ≤ scale.size.toNat := Nat.one_le_cast.2 scale.size_toNat_pos
  have hinner : Near 1 (nearest (v / t)) (v / t) :=
    near_nearest ((two_zpow_le (by norm_num)).trans h)
  have hlow : 2 ^ (-1000 : ℤ) ≤ nearest (v / t) := le_nearest (isDouble_two_zpow (by norm_num)) h
  have hproduct : 2 ^ (-1000 : ℤ) ≤ nearest (v / t) * scale.size.toNat :=
    hlow.trans (le_mul_of_one_le_right ((two_zpow_pos _).le.trans hlow) hS)
  exact (near_nearest ((two_zpow_le (by norm_num)).trans hproduct)).trans
    (hinner.mul_right (zero_le_one.trans hS))

/-- A tiny quotient stays tiny. -/
theorem scaled_le_of_le (scale : Scale) {t v : ℚ} (h : v / t ≤ 2 ^ (-1000 : ℤ)) :
    scaled scale t v ≤ 2 ^ (-968 : ℤ) := by
  have hinner : nearest (v / t) ≤ 2 ^ (-1000 : ℤ) :=
    nearest_le (isDouble_two_zpow (by norm_num)) h
  have hS : (scale.size.toNat : ℚ) ≤ 2 ^ (32 : ℤ) := by exact_mod_cast size_le scale
  refine nearest_le (isDouble_two_zpow (by norm_num)) ?_
  calc nearest (v / t) * scale.size.toNat ≤ 2 ^ (-1000 : ℤ) * 2 ^ (32 : ℤ) :=
        mul_le_mul hinner hS (Nat.cast_nonneg _) (two_zpow_pos _).le
    _ = 2 ^ (-968 : ℤ) := by
        rw [← zpow_add₀ (by norm_num)]
        norm_num

/-- **In units of the scale, a share lies close to its part of the scale**: `n` roundings are in the
sum `t` of the weights, `k` in the part `x` of the weight in the mass `T`, and two are new. -/
theorem abs_scaled_sub_le (scale : Scale) {n k : ℕ} {t T v x : ℚ} (hT : 0 < T) (hv : 0 ≤ v)
    (hx₀ : 0 ≤ x) (ht : Near n t T) (hx : Near k (v / T) x) (hnk : n + 2 + k ≤ 2 ^ 51) :
    |scaled scale t v - x * scale.size.toNat| ≤
      4 / 3 * (n + 2 + k : ℕ) / 2 ^ 53 * (x * scale.size.toNat) + 1 / 2 ^ 60 := by
  have htpos : 0 < t := ht.pos hT
  have hS₀ : (0 : ℚ) ≤ scale.size.toNat := Nat.cast_nonneg _
  have hquot : Near (n + k) (v / t) x := by
    have hdiv : Near n (v / t) (v / T) := by
      simpa using (Near.refl hv 0).div ht hv hv htpos hT
    exact hdiv.trans hx
  rcases le_total (2 ^ (-1000 : ℤ)) (v / t) with hlarge | hsmall
  · have hnear : Near (n + 2 + k) (scaled scale t v) (x * scale.size.toNat) := by
      rw [show n + 2 + k = 2 + (n + k) by ring]
      exact (near_scaled scale hlarge).trans (hquot.mul_right hS₀)
    refine (hnear.abs_sub_le (mul_nonneg hx₀ hS₀) hnk).trans ?_
    exact le_add_of_nonneg_right (by positivity)
  · -- both are next to nothing
    have hxsmall : x * scale.size.toNat ≤ 1 / 2 ^ 60 := by
      have hpow : 3 / 4 ≤ shrink ^ (n + k) := by
        refine le_trans ?_ (le_shrink_pow _)
        have : ((n + k : ℕ) : ℚ) ≤ 2 ^ 51 := by exact_mod_cast (by omega : n + k ≤ 2 ^ 51)
        linarith only [this]
      have hx₁ : 3 / 4 * x ≤ 2 ^ (-100 : ℤ) :=
        ((mul_le_mul_of_nonneg_right hpow hx₀).trans hquot.le).trans
          (hsmall.trans (two_zpow_le (by norm_num)))
      calc x * scale.size.toNat ≤ 4 / 3 * 2 ^ (-100 : ℤ) * 2 ^ 32 :=
            mul_le_mul (by linarith only [hx₁]) (size_le scale) hS₀ (by positivity)
        _ ≤ 1 / 2 ^ 60 := by norm_num
    have hscaled : scaled scale t v ≤ 1 / 2 ^ 60 :=
      ((scaled_le_of_le scale hsmall).trans (two_zpow_le (show (-968 : ℤ) ≤ -60 by norm_num))).trans
        (by norm_num)
    have hnonneg := scaled_nonneg scale htpos.le hv
    have hx₀' : 0 ≤ x * scale.size.toNat := mul_nonneg hx₀ hS₀
    refine le_trans ?_ (le_add_of_nonneg_left (by positivity))
    rw [abs_le]
    constructor <;> linarith

/-! ## The shares -/

/-- Dividing a weight by a running sum that it is part of. -/
theorem scaledValue_div {sum u : Float} {t : ℚ} (hsum : HasValue sum t) (ht : 0 < t)
    (hu : value (clampUnit u) ≤ t) :
    scaledValue scale (clampUnit u / sum) = scaled scale t (value (clampUnit u)) := by
  obtain ⟨hv, hv₀, -⟩ := hasValue_clampUnit u
  have hone : IsDouble 1 := by simpa using isDouble_natCast (n := 1)
  have hq₀ : 0 ≤ value (clampUnit u) / t := div_nonneg hv₀ ht.le
  have hq₁ : value (clampUnit u) / t ≤ 1 := (div_le_one ht).2 hu
  have hshare : HasValue (clampUnit u / sum) (nearest (value (clampUnit u) / t)) :=
    hv.div hsum ht.ne' (abs_le_of_le_two_pow (by rw [abs_of_nonneg hq₀]; linarith))
  rw [scaledValue, hshare.clampUnit_eq_self (nearest_nonneg hq₀) (nearest_le hone hq₁),
    hshare.value_eq, scaled]

/-- The shares of weights whose running sum is positive and none of them exceeds. -/
theorem exists_shares_of_sum (scale : Scale) {t : ℚ}
    (hsum : HasValue ((units.map clampUnit).foldl (· + ·) 0) t) (ht : 0 < t)
    (hle : ∀ u ∈ units, value (clampUnit u) ≤ t) :
    ∃ share : Float → Float, shares units = units.map share ∧
      ∀ u ∈ units, scaledValue scale (share u) = scaled scale t (value (clampUnit u)) := by
  have hlarge : ¬ (units.map clampUnit).foldl (· + ·) 0 ≤ 0 := fun h =>
    absurd ((hsum.le_iff hasValue_zero).1 h) (not_le.2 ht)
  refine ⟨fun u => clampUnit u / (units.map clampUnit).foldl (· + ·) 0, ?_, fun u hu =>
    scaledValue_div hsum ht (hle u hu)⟩
  rw [shares, if_neg hlarge, List.map_map]
  rfl

/-- **The shares of weights that are not all zero** are taken in their running sum `t`. -/
theorem exists_shares (scale : Scale) (hlen : units.length ≤ 2 ^ 51) (hmass : 0 < mass units) :
    ∃ (t : ℚ) (share : Float → Float), Near units.length t (mass units) ∧
      shares units = units.map share ∧
        ∀ u ∈ units, scaledValue scale (share u) = scaled scale t (value (clampUnit u)) := by
  obtain ⟨t, hsum, ht, hle⟩ := exists_runningSum hlen
  obtain ⟨share, hshares, hscaled⟩ := exists_shares_of_sum scale hsum (ht.pos hmass) hle
  exact ⟨t, share, ht, hshares, hscaled⟩

/-- **Weights that are near the parts of a whole `w` have shares close to these parts**, in the order
of the weights. -/
theorem exists_shares_near (scale : Scale) {α : Type} {l : List α} {unit : α → Float} {x : α → ℚ}
    {w : ℚ} {k : ℕ} (hw : 0 < w) (hx₀ : ∀ a ∈ l, 0 ≤ x a)
    (hx : ∀ a ∈ l, Near k (value (clampUnit (unit a))) (x a * w)) (hsum : (l.map x).sum = 1)
    (hlen : l.length + 2 + (k + k) ≤ 2 ^ 51) :
    ∃ share : α → Float, shares (l.map unit) = l.map share ∧
      (∀ a ∈ l, |scaledValue scale (share a) - x a * scale.size.toNat| ≤
        4 / 3 * (l.length + 2 + (k + k) : ℕ) / 2 ^ 53 * (x a * scale.size.toNat) + 1 / 2 ^ 60) ∧
      (∀ a ∈ l, value (clampUnit (unit a)) = 0 → scaledValue scale (share a) = 0) ∧
      ∀ a ∈ l, ∀ b ∈ l, value (clampUnit (unit a)) ≤ value (clampUnit (unit b)) →
        scaledValue scale (share a) ≤ scaledValue scale (share b) := by
  have hmass : Near k (mass (l.map unit)) w := by
    have hwhole : (l.map fun a => x a * w).sum = w := by
      rw [List.sum_map_mul_right, hsum, one_mul]
    rw [mass, List.map_map, ← hwhole]
    exact Near.sum hx
  have hmass₀ := hmass.pos hw
  obtain ⟨t, share, ht, hshares, hscaled⟩ := exists_shares scale
    (by rw [List.length_map]; omega) hmass₀
  rw [List.length_map] at ht
  have hscaled (a) (ha : a ∈ l) : scaledValue scale (share (unit a)) =
      scaled scale t (value (clampUnit (unit a))) := hscaled _ (List.mem_map_of_mem ha)
  refine ⟨fun a => share (unit a), by rw [hshares, List.map_map]; rfl, fun a ha => ?_,
    fun a ha hzero => ?_, fun a ha b hb hle => ?_⟩
  · have hv₀ := (hasValue_clampUnit (unit a)).2.1
    have hpart : Near (k + k) (value (clampUnit (unit a)) / mass (l.map unit)) (x a) := by
      have hdiv := (hx a ha).div hmass hv₀ (mul_nonneg (hx₀ a ha) hw.le) hmass₀ hw
      rwa [mul_div_cancel_right₀ _ hw.ne'] at hdiv
    rw [hscaled a ha]
    exact abs_scaled_sub_le scale hmass₀ hv₀ (hx₀ a ha) ht hpart hlen
  · rw [hscaled a ha, hzero, scaled_zero]
  · rw [hscaled a ha, hscaled b hb]
    exact scaled_mono scale (ht.pos hmass₀).le hle

end TierBudget.Policy
