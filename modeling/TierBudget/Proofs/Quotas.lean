import TierBudget.Proofs.Shares
/-!
# Quotas

The quota of a weight is its exact part of the whole: in proportion to the mass of all weights or, if
they weigh nothing, an even part. The quotas of all weights add up to one (`sum_quota`), and the
share of every weight is close to its quota, whether it comes from a division by the running sum or
from the even split (`exists_shares_quota`).
-/

namespace TierBudget.Policy

open Binary64 Apportionment

variable {units : List Float} {scale : Scale}

/-- The part of the whole that a weight is entitled to. -/
def quota (units : List Float) (u : Float) : ℚ :=
  if mass units = 0 then 1 / units.length else value (clampUnit u) / mass units

/-! ## Parts of the whole -/

theorem mass_nonneg (units : List Float) : 0 ≤ mass units :=
  List.sum_nonneg fun x hx => by
    obtain ⟨u, -, rfl⟩ := List.mem_map.1 hx
    exact (hasValue_clampUnit u).2.1

theorem quota_nonneg (units : List Float) (u : Float) : 0 ≤ quota units u := by
  unfold quota
  split
  · positivity
  · exact div_nonneg (hasValue_clampUnit u).2.1 (mass_nonneg units)

/-- **The quotas add up to one.** -/
theorem sum_quota (h : units ≠ []) : (units.map (quota units)).sum = 1 := by
  have hlen : (units.length : ℚ) ≠ 0 := Nat.cast_ne_zero.2 (List.length_pos_of_ne_nil h).ne'
  by_cases hmass : mass units = 0
  · have hquota : quota units = fun _ => 1 / (units.length : ℚ) := funext fun _ => if_pos hmass
    rw [hquota, List.map_const', List.sum_replicate, nsmul_eq_mul, mul_one_div_cancel hlen]
  · have hquota : quota units = fun u => value (clampUnit u) * (mass units)⁻¹ := funext fun u => by
      rw [quota, if_neg hmass, div_eq_mul_inv]
    rw [hquota, List.sum_map_mul_right]
    exact mul_inv_cancel₀ hmass

theorem quota_le_one {u : Float} (hu : u ∈ units) : quota units u ≤ 1 := by
  rw [← sum_quota (List.ne_nil_of_mem hu)]
  exact List.single_le_sum (fun x hx => by
    obtain ⟨v, -, rfl⟩ := List.mem_map.1 hx
    exact quota_nonneg units v) _ (List.mem_map_of_mem hu)

/-- Weights of the same value have even quotas. -/
theorem quota_of_forall_eq {v : ℚ} (h : ∀ u ∈ units, value (clampUnit u) = v) {u : Float}
    (hu : u ∈ units) : quota units u = 1 / units.length := by
  have hmass : mass units = units.length * v := by
    rw [mass, List.map_congr_left h, List.map_const', List.sum_replicate, nsmul_eq_mul]
  by_cases hzero : mass units = 0
  · rw [quota, if_pos hzero]
  · rw [quota, if_neg hzero, h u hu, hmass, div_mul_cancel_right₀, one_div]
    rintro rfl
    exact hzero (by rw [hmass, mul_zero])

/-! ## Shares -/

/-- Weights that weigh nothing get even shares. -/
theorem shares_of_mass_eq_zero (hlen : units.length ≤ 2 ^ 51) (h : mass units = 0) :
    shares units = units.map fun _ => 1 / .ofNat units.length := by
  obtain ⟨t, hsum, ht, -⟩ := exists_runningSum hlen
  have hle : (units.map clampUnit).foldl (· + ·) 0 ≤ 0 := by
    rw [hsum.le_iff hasValue_zero]
    refine nonpos_of_mul_nonpos_right (a := shrink ^ units.length) ?_ (shrink_pow_pos _)
    rw [← h]
    exact ht.ge
  rw [shares, if_pos hle, List.map_map]
  rfl

/-- An even share in units of a scale. -/
theorem scaledValue_even {n : ℕ} (hn : 0 < n) (hlen : n < 2 ^ 53) :
    scaledValue scale (1 / .ofNat n) = scaled scale n 1 := by
  have hn₁ : (1 : ℚ) ≤ n := Nat.one_le_cast.2 hn
  have hq₁ : (1 : ℚ) / n ≤ 1 := (div_le_one (by linarith)).2 hn₁
  have hq₀ : (0 : ℚ) ≤ 1 / n := by positivity
  have hone : IsDouble 1 := by simpa using isDouble_natCast (n := 1)
  have hshare : HasValue (1 / .ofNat n) (nearest (1 / n)) :=
    hasValue_one.div (hasValue_ofNat hlen) (by linarith)
      (abs_le_of_le_two_pow (by rw [abs_of_nonneg hq₀]; linarith))
  rw [scaledValue, hshare.clampUnit_eq_self (nearest_nonneg hq₀) (nearest_le hone hq₁),
    hshare.value_eq, scaled]

/-- **The shares of any weights are close to their quotas**, nothing where the quota is nothing, and
in the order of the weights. -/
theorem exists_shares_quota (scale : Scale) (hne : units ≠ []) (hlen : units.length ≤ 2 ^ 50) :
    ∃ share : Float → Float, shares units = units.map share ∧
      (∀ u ∈ units, |scaledValue scale (share u) - quota units u * scale.size.toNat| ≤
        4 / 3 * (units.length + 2 : ℕ) / 2 ^ 53 * (quota units u * scale.size.toNat) + 1 / 2 ^ 60) ∧
      (∀ u ∈ units, quota units u = 0 → scaledValue scale (share u) = 0) ∧
      ∀ u ∈ units, ∀ v ∈ units, value (clampUnit u) ≤ value (clampUnit v) →
        scaledValue scale (share u) ≤ scaledValue scale (share v) := by
  by_cases hmass : mass units = 0
  · have hpos : 0 < units.length := List.length_pos_of_ne_nil hne
    have hpos' : (0 : ℚ) < units.length := Nat.cast_pos.2 hpos
    have hquota (u : Float) : quota units u = 1 / units.length := if_pos hmass
    have hshares := shares_of_mass_eq_zero (hlen.trans (by norm_num)) hmass
    refine ⟨_, hshares, fun u _ => ?_, fun u _ hzero => ?_, fun _ _ _ _ _ => le_rfl⟩
    · have hclose := abs_scaled_sub_le scale (n := units.length) (k := 0) hpos' zero_le_one
        (by positivity) (.refl hpos'.le _) (.refl (by positivity) 0) (by omega)
      rwa [← scaledValue_even hpos (by omega), ← hquota u, Nat.add_zero] at hclose
    · rw [hquota] at hzero
      exact absurd hzero (by positivity)
  · have hmass' : 0 < mass units := (mass_nonneg units).lt_of_ne' hmass
    have hquota (u : Float) : quota units u = value (clampUnit u) / mass units := if_neg hmass
    have hnear : ∀ u ∈ units, Near 0 (value (clampUnit (id u))) (quota units u * mass units) := by
      intro u _
      rw [hquota, div_mul_cancel₀ _ hmass]
      exact .refl (hasValue_clampUnit u).2.1 0
    obtain ⟨share, hshares, hclose, hzero, hmono⟩ := exists_shares_near scale hmass'
      (fun u _ => quota_nonneg units u) hnear (sum_quota hne) (by omega)
    rw [List.map_id] at hshares
    refine ⟨share, hshares, hclose, fun u hu h₀ => hzero u hu ?_, hmono⟩
    rw [hquota, div_eq_zero_iff] at h₀
    exact h₀.resolve_right hmass

end TierBudget.Policy
