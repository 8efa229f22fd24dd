import TierBudget.Proofs.Values
/-!
# Cutting a share

What `Apportionment.part` computes, in rationals: the share in units of the scale is rounded to a
double (`scaledValue`), its floor is taken after the snap (`part_floor`), and what is left over is
rounded to billionths (`part_remainder`). Whatever the share, the floor stays within the scale
(`part_floor_le`), because a half above a whole number below `2 ^ 32` is a double that the snap does
not reach.

The share lies less than a unit above its floor (`lt_floor_add_one`) and hardly below it
(`floor_le`). What is left over is taken off without an error (`leftValue_eq`), so a remainder is
half a billionth off at most (`abs_remainder_sub_le`).
-/

namespace TierBudget.Apportionment

open Binary64

/-! ## The constants -/

/-- The double nearest to a billionth. -/
def snapValue : ℚ := 4835703278458517 / 2 ^ 82

theorem hasValue_snap : HasValue snap snapValue := by
  have h := hasValue_of_unpack (show snap.toModel.unpack =
    .finite .positive 4835703278458517 (-82) (by norm_num) from rfl)
  norm_num [sgn, snapValue] at h ⊢
  exact h

theorem snapValue_pos : 0 < snapValue := by norm_num [snapValue]

theorem snapValue_le : snapValue ≤ 1 / 2 ^ 29 := by norm_num [snapValue]

theorem hasValue_resolution : HasValue resolution 1000000000 := by
  have h := hasValue_of_unpack (show resolution.toModel.unpack =
    .finite .positive 8388608000000000 (-23) (by norm_num) from rfl)
  norm_num [sgn] at h
  exact h

/-! ## The steps -/

variable (scale : Scale) (share : Float)

/-- The share in units of the scale. -/
def scaledValue : ℚ := nearest (value (clampUnit share) * scale.size.toNat)

theorem isDouble_size : IsDouble (scale.size.toNat : ℚ) :=
  isDouble_natCast (scale.size.toNat_lt.le.trans (by norm_num))

theorem size_le : (scale.size.toNat : ℚ) ≤ 2 ^ 32 := by exact_mod_cast scale.size.toNat_lt.le

theorem scaledValue_nonneg : 0 ≤ scaledValue scale share :=
  nearest_nonneg (mul_nonneg (hasValue_clampUnit share).2.1 (Nat.cast_nonneg _))

theorem scaledValue_le : scaledValue scale share ≤ scale.size.toNat :=
  nearest_le (isDouble_size scale)
    (mul_le_of_le_one_left (Nat.cast_nonneg _) (hasValue_clampUnit share).2.2)

/-- The share in units of the scale, before it is rounded to a double. -/
theorem abs_scaledValue_sub_mul_le :
    |scaledValue scale share - value (clampUnit share) * scale.size.toNat| ≤ 1 / 2 ^ 22 := by
  obtain ⟨-, h₀, h₁⟩ := hasValue_clampUnit share
  have hrange : |value (clampUnit share) * scale.size.toNat| ≤ 2 ^ (32 : ℤ) := by
    rw [abs_of_nonneg (mul_nonneg h₀ (Nat.cast_nonneg _))]
    exact (mul_le_of_le_one_left (Nat.cast_nonneg _) h₁).trans (by exact_mod_cast size_le scale)
  have hround := abs_nearest_sub_le_of_abs_le (by norm_num) hrange
  norm_num at hround ⊢
  exact hround

theorem hasValue_scaled :
    HasValue (clampUnit share * scale.toFloat) (scaledValue scale share) := by
  obtain ⟨h, h₀, h₁⟩ := hasValue_clampUnit share
  refine h.mul scale.hasValue_size (abs_le_of_le_two_pow ?_)
  rw [abs_of_nonneg (mul_nonneg h₀ (Nat.cast_nonneg _))]
  calc value (clampUnit share) * scale.size.toNat
      ≤ scale.size.toNat := mul_le_of_le_one_left (Nat.cast_nonneg _) h₁
    _ ≤ 2 ^ 64 := (size_le scale).trans (by norm_num)

theorem part_floor :
    (part scale share).floor = ⌊nearest (scaledValue scale share + snapValue)⌋₊ := by
  have h₀ := scaledValue_nonneg scale share
  have hpos : 0 ≤ scaledValue scale share + snapValue := add_nonneg h₀ snapValue_pos.le
  refine ((hasValue_scaled scale share).add hasValue_snap (abs_le_of_le_two_pow ?_)).floor_eq
    (nearest_nonneg hpos)
  rw [abs_of_nonneg hpos]
  have h₁ := scaledValue_le scale share
  have h₂ := size_le scale
  have h₃ := snapValue_le
  linarith

/-- **No share is cut to more than the whole.** -/
theorem part_floor_le : (part scale share).floor ≤ scale.size.toNat := by
  have hhalf : IsDouble ((scale.size.toNat : ℚ) + 1 / 2) := by
    refine ⟨2 * scale.size.toNat + 1, -1, ?_, by norm_num, ?_⟩
    · have := scale.size.toNat_lt
      rw [abs_of_nonneg (by omega)]
      omega
    · push_cast
      field_simp
  have hle : scaledValue scale share + snapValue ≤ scale.size.toNat + 1 / 2 := by
    have := snapValue_le
    have := scaledValue_le scale share
    linarith
  rw [part_floor, ← Nat.lt_add_one_iff, Nat.floor_lt' (Nat.succ_ne_zero _)]
  refine (nearest_le hhalf hle).trans_lt ?_
  push_cast
  linarith

/-- What the cut leaves over, before it is rounded to billionths. -/
def leftValue : ℚ := max 0 (nearest (scaledValue scale share - (part scale share).floor))

theorem leftValue_nonneg : 0 ≤ leftValue scale share := le_max_left _ _

theorem part_remainder :
    (part scale share).remainder = ⌊nearest (leftValue scale share * 1000000000) + 1 / 2⌋₊ := by
  have h₀ := scaledValue_nonneg scale share
  have h₁ := scaledValue_le scale share
  have h₂ : ((part scale share).floor : ℚ) ≤ scale.size.toNat := by
    exact_mod_cast part_floor_le scale share
  have h₃ : (0 : ℚ) ≤ (part scale share).floor := Nat.cast_nonneg _
  have hsize := size_le scale
  have hdiff : |scaledValue scale share - (part scale share).floor| ≤ 2 ^ 32 := by
    rw [abs_le]
    constructor <;> linarith
  have hfloor : HasValue (.ofNat (part scale share).floor) (part scale share).floor :=
    hasValue_ofNat ((part_floor_le scale share).trans_lt (scale.size.toNat_lt.trans (by norm_num)))
  have hleft := (hasValue_scaled scale share).sub hfloor
    (abs_le_of_le_two_pow (hdiff.trans (by norm_num)))
  set left := clampUnit share * scale.toFloat - .ofNat (part scale share).floor with hl
  have hfraction : HasValue (if 0 < left then left else 0) (leftValue scale share) := by
    simp only [hasValue_zero.lt_iff hleft, leftValue]
    split_ifs with hlt
    · rwa [max_eq_right hlt.le]
    · rw [max_eq_left (not_lt.1 hlt)]
      exact hasValue_zero
  have hle : leftValue scale share ≤ 2 ^ 32 := by
    have h32 : IsDouble (2 ^ 32 : ℚ) := by
      exact_mod_cast isDouble_natCast (n := 2 ^ 32) (by norm_num)
    exact max_le (by norm_num) ((le_abs_self _).trans (abs_nearest_le h32 hdiff))
  have hnonneg := mul_nonneg (leftValue_nonneg scale share) (show (0 : ℚ) ≤ 1000000000 by norm_num)
  refine (hfraction.mul hasValue_resolution (abs_le_of_le_two_pow ?_)).round_eq
    (nearest_nonneg hnonneg)
  rw [abs_of_nonneg hnonneg]
  linarith

/-! ## How far the cut is from the share -/

theorem isDouble_scaledValue : IsDouble (scaledValue scale share) :=
  (hasValue_scaled scale share).isDouble

/-- How far above a share of `s` units its floor may lie. -/
def overshoot (s : ℚ) : ℚ := s / 2 ^ 53 + 1 / 2 ^ 29

theorem overshoot_nonneg {s : ℚ} (h : 0 ≤ s) : 0 ≤ overshoot s := by
  unfold overshoot
  positivity

theorem floor_le : ((part scale share).floor : ℚ) ≤
    scaledValue scale share + overshoot (scaledValue scale share) := by
  have h₀ := scaledValue_nonneg scale share
  have hpos : 0 ≤ scaledValue scale share + snapValue := add_nonneg h₀ snapValue_pos.le
  have hnormal : (2 : ℚ) ^ (-1022 : ℤ) ≤ scaledValue scale share + snapValue := by
    have hsnap : (2 : ℚ) ^ (-30 : ℤ) ≤ snapValue := by norm_num [snapValue]
    exact (two_zpow_le (by norm_num)).trans (hsnap.trans (le_add_of_nonneg_left h₀))
  have hround := abs_nearest_sub_le_mul (by rwa [abs_of_nonneg hpos])
  rw [abs_of_nonneg hpos] at hround
  have hsnap : snapValue + snapValue / 2 ^ 53 ≤ 1 / 2 ^ 29 := by norm_num [snapValue]
  have hle := (abs_le.1 hround).2
  rw [part_floor]
  refine (Nat.floor_le (nearest_nonneg hpos)).trans ?_
  unfold overshoot
  linarith

theorem lt_floor_add_one : scaledValue scale share < (part scale share).floor + 1 := by
  rw [part_floor]
  exact (le_nearest (isDouble_scaledValue scale share)
    (le_add_of_nonneg_right snapValue_pos.le)).trans_lt (Nat.lt_floor_add_one _)

theorem overshoot_scaledValue_le : overshoot (scaledValue scale share) ≤ 1 / 2 ^ 20 := by
  have h := (scaledValue_le scale share).trans (size_le scale)
  calc overshoot (scaledValue scale share) ≤ 2 ^ 32 / 2 ^ 53 + 1 / 2 ^ 29 := by
        unfold overshoot
        gcongr
    _ ≤ 1 / 2 ^ 20 := by norm_num

/-- What is left of a double after a whole number below it is taken away is a double. -/
theorem isDouble_sub_natCast {q : ℚ} {n : ℕ} (h : IsDouble q) (hle : (n : ℚ) ≤ q)
    (hlt : q < n + 1) : IsDouble (q - n) := by
  obtain ⟨m, e, hm, he, rfl⟩ := h
  rcases le_or_gt 0 e with hpos | hneg
  · -- a whole number itself
    obtain ⟨k, rfl⟩ := Int.eq_ofNat_of_zero_le hpos
    have hint : (m : ℚ) * 2 ^ (k : ℤ) = ((m * 2 ^ k : ℤ) : ℚ) := by push_cast; norm_num
    rw [hint] at hle hlt ⊢
    have hle : (n : ℤ) ≤ m * 2 ^ k := by exact_mod_cast hle
    have hlt : m * 2 ^ k < n + 1 := by exact_mod_cast hlt
    obtain hn : m * 2 ^ k = n := by omega
    rw [hn]
    exact ⟨0, 0, by norm_num, by norm_num, by simp⟩
  · obtain ⟨k, hk⟩ := Int.eq_ofNat_of_zero_le (neg_nonneg.2 hneg.le)
    obtain rfl : e = -(k : ℤ) := by omega
    have hsplit : (m : ℚ) * 2 ^ (-(k : ℤ)) - n = ((m - n * 2 ^ k : ℤ) : ℚ) * 2 ^ (-(k : ℤ)) := by
      push_cast
      rw [sub_mul, mul_assoc, ← zpow_natCast, ← zpow_add₀ (by norm_num)]
      simp
    refine ⟨m - n * 2 ^ k, -k, ?_, he, hsplit⟩
    have hpos : (0 : ℚ) ≤ ((m - n * 2 ^ k : ℤ) : ℚ) * 2 ^ (-(k : ℤ)) := by
      rw [← hsplit]
      linarith
    have hnonneg : 0 ≤ m - n * 2 ^ k := by
      exact_mod_cast nonneg_of_mul_nonneg_left hpos (two_zpow_pos _)
    have hnk : (0 : ℤ) ≤ n * 2 ^ k := by positivity
    rw [abs_of_nonneg hnonneg]
    exact (by omega : m - n * 2 ^ k ≤ m).trans ((le_abs_self m).trans hm)

/-- What a cut leaves over is taken off exactly. -/
theorem leftValue_eq :
    leftValue scale share = max 0 (scaledValue scale share - (part scale share).floor) := by
  rw [leftValue]
  rcases le_total ((part scale share).floor : ℚ) (scaledValue scale share) with hle | hle
  · rw [nearest_eq_self (isDouble_sub_natCast (isDouble_scaledValue scale share) hle
      (lt_floor_add_one scale share))]
  · have hneg : scaledValue scale share - (part scale share).floor ≤ 0 := sub_nonpos.2 hle
    have hzero : IsDouble 0 := by simpa using isDouble_natCast (n := 0)
    rw [max_eq_left (nearest_le hzero hneg), max_eq_left hneg]

theorem leftValue_lt_one : leftValue scale share < 1 := by
  rw [leftValue_eq]
  have := lt_floor_add_one scale share
  exact max_lt one_pos (by linarith)

/-- A remainder is what is left over in billionths, give or take half a billionth. -/
theorem abs_remainder_sub_le :
    |((part scale share).remainder : ℚ) - leftValue scale share * 1000000000| ≤ 51 / 100 := by
  have h₀ := mul_nonneg (leftValue_nonneg scale share) (show (0 : ℚ) ≤ 1000000000 by norm_num)
  have hlt := leftValue_lt_one scale share
  have hround := abs_nearest_sub_le_of_abs_le (k := 30) (by norm_num)
    (q := leftValue scale share * 1000000000) (by
      rw [abs_of_nonneg h₀]
      norm_num
      linarith)
  have hpos : 0 ≤ nearest (leftValue scale share * 1000000000) + 1 / 2 :=
    add_nonneg (nearest_nonneg h₀) (by norm_num)
  have hfloor := Nat.floor_le hpos
  have hfloor' := Nat.lt_floor_add_one (nearest (leftValue scale share * 1000000000) + 1 / 2)
  rw [← part_remainder] at hfloor hfloor'
  rw [abs_le] at hround ⊢
  norm_num at hround
  constructor <;> linarith

variable {scale share} {share' : Float}

theorem floor_le_floor (h : scaledValue scale share' ≤ scaledValue scale share) :
    (part scale share').floor ≤ (part scale share).floor := by
  rw [part_floor, part_floor]
  exact Nat.floor_mono (nearest_mono (by linarith))

/-- Of two shares that are cut to the same whole number, the larger one leaves more over. -/
theorem remainder_le_remainder (h : scaledValue scale share' ≤ scaledValue scale share)
    (hfloor : (part scale share').floor = (part scale share).floor) :
    (part scale share').remainder ≤ (part scale share).remainder := by
  have hleft : leftValue scale share' ≤ leftValue scale share := by
    rw [leftValue_eq, leftValue_eq, hfloor]
    exact max_le_max_left 0 (by linarith)
  rw [part_remainder, part_remainder]
  exact Nat.floor_mono (add_le_add_left (nearest_mono (by linarith)) _)

end TierBudget.Apportionment
