import TierBudget.Proofs.RoundTrip
/-!
# Encoding a single weight

A weight is encoded by rounding what it is in units of the scale (`Scale.toNat_encode`). Decoding
rounds a quotient and encoding a product; the two errors together stay far below half a unit, so a
decoded count is encoded as itself (`Scale.encode_decode`), without any look at the other counts.
Encoding is then a left inverse of decoding that keeps the order of the weights
(`Scale.encoding_is_left_inverse`).
-/

namespace TierBudget

open Binary64 Apportionment

namespace Scale

variable (s : Scale)

/-- The count of a weight is the whole number nearest to the weight in units of the scale. -/
theorem toNat_encode (unit : Float) : (s.encode unit).toNat = ⌊scaledValue s unit + 1 / 2⌋₊ := by
  have hround := (hasValue_scaled s unit).round_eq (scaledValue_nonneg s unit)
  have hlt : ⌊scaledValue s unit + 1 / 2⌋₊ < s.size.toNat + 1 := by
    rw [Nat.floor_lt (add_nonneg (scaledValue_nonneg s unit) (by norm_num))]
    have := scaledValue_le s unit
    push_cast
    linarith
  have := s.size.toNat_lt
  rw [encode, hround, toNat_ofNat_of_lt (by omega)]

/-- Rounding moves a weight by half a unit at most. -/
theorem abs_encode_sub_le (unit : Float) :
    |((s.encode unit).toNat : ℚ) - scaledValue s unit| ≤ 1 / 2 := by
  have hfloor := Nat.floor_le (add_nonneg (scaledValue_nonneg s unit)
    (show (0 : ℚ) ≤ 1 / 2 by norm_num))
  have hlt := Nat.lt_floor_add_one (scaledValue s unit + 1 / 2)
  rw [toNat_encode, abs_le]
  constructor <;> linarith

variable {n : Count}

/-- Multiplied back, a decoded count is nearly itself. -/
theorem abs_scaledValue_decode_sub_le (h : n ≤ s.size) :
    |scaledValue s (s.decode n) - n.toNat| ≤ 1 / 2 ^ 21 := by
  have hS : (0 : ℚ) < s.size.toNat := by exact_mod_cast s.size_toNat_pos
  have hround := abs_scaledValue_sub_mul_le s (s.decode n)
  rw [clampUnit_decode, (s.hasValue_decode n h).value_eq] at hround
  have hdecode : |nearest ((n.toNat : ℚ) / s.size.toNat) * s.size.toNat - n.toNat| ≤
      1 / 2 ^ 22 := by
    have hsplit : nearest ((n.toNat : ℚ) / s.size.toNat) * s.size.toNat - n.toNat =
        (nearest ((n.toNat : ℚ) / s.size.toNat) - n.toNat / s.size.toNat) * s.size.toNat := by
      rw [sub_mul, div_mul_cancel₀ _ hS.ne']
    rw [hsplit, abs_mul, abs_of_pos hS]
    calc _ ≤ 1 / 2 ^ 54 * (2 ^ 32 : ℚ) :=
          mul_le_mul (abs_nearest_div_size_sub_le h) (size_le s) hS.le (by norm_num)
      _ = 1 / 2 ^ 22 := by norm_num
  calc _ ≤ 1 / 2 ^ 22 + 1 / 2 ^ 22 := (abs_sub_le _ _ _).trans (add_le_add hround hdecode)
    _ = 1 / 2 ^ 21 := by norm_num

/-- **A decoded count is encoded as itself.** -/
theorem encode_decode (h : n ≤ s.size) : s.encode (s.decode n) = n := by
  have hclose := abs_le.1 (s.abs_scaledValue_decode_sub_le h)
  refine UInt32.toNat_inj.1 ?_
  rw [toNat_encode, Nat.floor_eq_iff (add_nonneg (scaledValue_nonneg s _) (by norm_num))]
  constructor <;> norm_num at hclose ⊢ <;> linarith

/-- Of any count comes back what the scale reads of it. -/
theorem encode_decode_eq_min (n : Count) : s.encode (s.decode n) = min n s.size := by
  rw [← s.decode_min, s.encode_decode (s.min_size_le n)]

/-- **Rounding to the grid is idempotent**, whatever the double. -/
theorem roundUnit_roundUnit (unit : Float) : s.roundUnit (s.roundUnit unit) = s.roundUnit unit := by
  rw [roundUnit, roundUnit, encode_decode_eq_min, decode_min]

/-- **Encoding keeps the order of doubles.** -/
theorem encode_le_encode {x y : Float} (h : x ≤ y) : s.encode x ≤ s.encode y := by
  have hscaled : scaledValue s x ≤ scaledValue s y :=
    nearest_mono (mul_le_mul_of_nonneg_right (value_clampUnit_le h) (Nat.cast_nonneg _))
  rw [UInt32.le_iff_toNat_le, toNat_encode, toNat_encode]
  exact Nat.floor_mono (add_le_add_left hscaled _)

/-- Only zero is decoded as no weight. -/
theorem decode_le_zero_iff (h : n ≤ s.size) : s.decode n ≤ 0 ↔ n = 0 := by
  rw [(s.hasValue_decode n h).le_iff hasValue_zero]
  constructor
  · intro hle
    by_contra hne
    have hunit := two_zpow_le_div_size (s := s) fun h₀ => hne (UInt32.toNat_inj.1 h₀)
    have hpos := le_nearest (isDouble_two_zpow (by norm_num)) hunit
    exact absurd (hpos.trans hle) (not_le.2 (two_zpow_pos _))
  · rintro rfl
    simp

/-- **Encoding is a left inverse of decoding and keeps the order.** At every scale, any 32-bit count
comes back from its unit weight, cut to the size of the scale. So rounding a double to the grid once
more changes nothing, not even a bit, and of two doubles that compare the larger one has no smaller
count; NaN compares with none. -/
theorem encoding_is_left_inverse (s : Scale) :
    (∀ n : Count, s.encode (s.decode n) = min n s.size) ∧
      (∀ x : Float, s.roundUnit (s.roundUnit x) = s.roundUnit x) ∧
      ∀ x y : Float, x ≤ y → s.encode x ≤ s.encode y :=
  ⟨s.encode_decode_eq_min, s.roundUnit_roundUnit, fun _ _ => s.encode_le_encode⟩

/-- At the largest scale, with two neighbouring doubles on either side of a half. -/
theorem encoding_is_left_inverse_largest :
    let s : Scale := ⟨4294967295, by decide⟩
    let x : Float := 0.29999999999999993
    s.encode (s.decode 4294967294) = 4294967294 ∧ s.roundUnit (s.roundUnit x) = s.roundUnit x ∧
      x ≤ 0.3 ∧ s.encode x ≤ s.encode 0.3 ∧ s.encode x ≠ s.encode 0.3 := by
  intro s x
  obtain ⟨hinverse, hround, hmono⟩ := encoding_is_left_inverse s
  have hle : x ≤ 0.3 := by decide
  exact ⟨(hinverse _).trans (by decide), hround x, hle, hmono _ _ hle, by decide⟩

end Scale

end TierBudget
