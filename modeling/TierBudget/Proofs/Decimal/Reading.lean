import TierBudget.Decimal.Shortest
import TierBudget.Proofs.Values
/-!
# Reading decimals

`Decimal.toFloat` gives the double nearest to the value of a decimal, and infinity if that is out of
range (`Decimal.roundsTo_toFloat`). It takes two ways: short decimals are one product or quotient of
exact doubles, all others are rounded from whole numbers of any length.
-/

namespace TierBudget

open Binary64 Float.Model Float.Model.UnpackedFloat

/-! ## Rounded results -/

namespace Binary64

/-- The double nearest to `q`, or an infinity if that is out of range. -/
inductive RoundsTo (q : ℚ) (x : Float) : Prop where
  | inRange (hlt : |nearest q| < 2 ^ (1024 : ℤ)) (h : HasValue x (nearest q))
  | outOfRange (hle : 2 ^ (1024 : ℤ) ≤ |nearest q|) (s : Sign) (h : x.toModel.unpack = .infinity s)

theorem Rounds.roundsTo {q : ℚ} {u : UnpackedFloat} (h : Rounds q u) :
    RoundsTo q (.ofModel (.pack u)) := by
  rcases lt_or_ge |nearest q| (2 ^ (1024 : ℤ)) with hlt | hle
  · exact .inRange hlt (h.hasValue_of_lt hlt)
  · obtain ⟨s, hs⟩ := h.unpack_pack_of_le hle
    exact .outOfRange hle s hs

theorem HasValue.roundsTo_mul {x y : Float} {p q : ℚ} (hx : HasValue x p) (hy : HasValue y q) :
    RoundsTo (p * q) (x * y) := (Denotes.mul hx hy (fits_unpack _) (fits_unpack _)).roundsTo

theorem HasValue.roundsTo_div {x y : Float} {p q : ℚ} (hx : HasValue x p) (hy : HasValue y q)
    (hq : q ≠ 0) : RoundsTo (p / q) (x / y) := (Denotes.div hx hy hq).roundsTo

theorem RoundsTo.hasValue {q : ℚ} {x : Float} (h : RoundsTo q x)
    (hlt : |nearest q| < 2 ^ (1024 : ℤ)) : HasValue x (nearest q) := by
  cases h with
  | inRange _ h => exact h
  | outOfRange hle s h => exact absurd hlt (not_lt.2 hle)

/-- A finite double was rounded in range. -/
theorem RoundsTo.eq_of_hasValue {p q : ℚ} {x : Float} (h : RoundsTo q x) (hx : HasValue x p) :
    |nearest q| < 2 ^ (1024 : ℤ) ∧ nearest q = p := by
  cases h with
  | inRange hlt h => exact ⟨hlt, h.unique hx⟩
  | outOfRange hle s h =>
    unfold HasValue at hx
    rw [h] at hx
    cases hx

/-- A whole number of 54 digits or more can be rounded as it is. -/
theorem rounds_of_long {n : ℕ} (hn : 2 ^ 53 ≤ n) :
    Rounds (n * 2 ^ (-53 : ℤ)) (roundWithAccuracy Format.binary64 .positive n (-53) .exact) := by
  have hlog : 53 ≤ n.log2 := (Nat.le_log2 (by omega)).2 hn
  have h := rounds_roundWithAccuracy .positive (e := -53) (marks_exact n) (.inl (by omega))
    (by rw [targetExponent_eq, totalExponent]; omega)
  rwa [sgn, one_mul] at h

/-- The product of a mantissa brought to full length with a power of ten. -/
theorem rounds_mul_ten_pow {m : ℕ} (hm : 0 < m) (k : ℕ) (h₁ : 0 < m <<< 53) (h₂ : 0 < 10 ^ k) :
    Rounds (m * 10 ^ k) (UnpackedFloat.mul Format.binary64
      (.finite .positive (m <<< 53) (-53) h₁) (.finite .positive (10 ^ k) 0 h₂)) := by
  have hlong : 2 ^ 53 ≤ m <<< 53 * 10 ^ k := by
    rw [Nat.shiftLeft_eq]
    calc 2 ^ 53 ≤ m * 2 ^ 53 := Nat.le_mul_of_pos_left _ hm
      _ ≤ m * 2 ^ 53 * 10 ^ k := Nat.le_mul_of_pos_right _ h₂
  have hvalue : ((m <<< 53 * 10 ^ k : ℕ) : ℚ) * 2 ^ (-53 : ℤ) = m * 10 ^ k := by
    rw [Nat.shiftLeft_eq, zpow_neg, zpow_ofNat]
    push_cast
    field_simp
    norm_num
  rw [← hvalue]
  exact rounds_of_long hlong

theorem rounds_div_ten_pow {m : ℕ} (k : ℕ) (h₁ : 0 < m) (h₂ : 0 < 10 ^ k) :
    Rounds (m / 10 ^ k) (UnpackedFloat.div Format.binary64
      (.finite .positive m 0 h₁) (.finite .positive (10 ^ k) 0 h₂)) := by
  have h := Denotes.div (.finite .positive m 0 h₁) (.finite .positive (10 ^ k) 0 h₂)
    (by simp [sgn])
  simpa [sgn] using h

/-- Powers of ten beyond the range of doubles. -/
theorem two_zpow_le_ten_zpow {e : ℤ} (he : 309 ≤ e) : (2 : ℚ) ^ (1024 : ℤ) ≤ 10 ^ e := by
  have hnat : (2 : ℕ) ^ 1024 ≤ 10 ^ 309 := by decide +kernel
  calc (2 : ℚ) ^ (1024 : ℤ) ≤ 10 ^ (309 : ℤ) := by exact_mod_cast hnat
    _ ≤ 10 ^ e := zpow_le_zpow_right₀ (by norm_num) he

/-- What is below half of the least double rounds to zero. -/
theorem nearest_eq_zero {q : ℚ} (h₀ : 0 < q) (h : q < 2 ^ (-1075 : ℤ)) : nearest q = 0 := by
  have hlast : lastPlace q = -1074 := by
    refine lastPlace_eq h₀.ne' le_rfl ?_ (.inr rfl)
    rw [abs_of_pos h₀]
    exact h.trans (zpow_lt_zpow_right₀ (by norm_num) (by norm_num))
  have hhalf : q / 2 ^ (-1074 : ℤ) < 1 / 2 := by
    rw [div_lt_iff₀ (two_zpow_pos _)]
    refine h.trans_eq ?_
    rw [show (-1074 : ℤ) = -1075 + 1 by norm_num, zpow_add₀ (by norm_num)]
    ring
  have hpos : 0 < q / 2 ^ (-1074 : ℤ) := div_pos h₀ (two_zpow_pos _)
  have habs : |q / 2 ^ (-1074 : ℤ) - (0 : ℤ)| < 1 / 2 := by
    rwa [Int.cast_zero, sub_zero, abs_of_pos hpos]
  have hzero : IsNearestInt (q / 2 ^ (-1074 : ℤ)) 0 := ⟨habs.le, fun h => absurd h habs.ne⟩
  rw [nearest, hlast, hzero.roundEven_eq, Int.cast_zero, zero_mul]

theorem roundsTo_ofScientific (m : ℕ) (e : ℤ) :
    RoundsTo (m * 10 ^ e) (.ofModel (.ofScientific m e)) := by
  rw [Float.Model.ofScientific, UnpackedFloat.ofScientific]
  split_ifs with hm hhigh hlow hsign
  · subst hm
    refine Rounds.roundsTo ?_
    change nearest _ = 0
    simp
  · have hone : (1 : ℚ) ≤ m := by exact_mod_cast Nat.pos_of_ne_zero hm
    have hle : (2 : ℚ) ^ (1024 : ℤ) ≤ nearest (m * 10 ^ e) := by
      refine le_nearest (isDouble_two_zpow (by norm_num)) ?_
      have he : (309 : ℤ) ≤ e := le_trans (by decide) hhigh.le
      exact (two_zpow_le_ten_zpow he).trans
        (le_mul_of_one_le_left (zpow_pos (by norm_num) e).le hone)
    refine .outOfRange (hle.trans (le_abs_self _)) .positive ?_
    exact unpack_pack (u := .infinity .positive) trivial
  · refine Rounds.roundsTo (nearest_eq_zero (by positivity) ?_)
    have hlog : (m : ℚ) < 2 ^ ((m.log2 : ℤ) + 1) := by exact_mod_cast @Nat.lt_log2_self m
    have he : e < -(2048 + m.log2) := hlow
    calc (m : ℚ) * 10 ^ e ≤ m * 2 ^ e := by
          refine mul_le_mul_of_nonneg_left ?_ (Nat.cast_nonneg m)
          obtain ⟨k, hk⟩ := Int.eq_ofNat_of_zero_le (show 0 ≤ -e by omega)
          obtain rfl : e = -k := by omega
          rw [zpow_neg, zpow_neg]
          exact inv_anti₀ (by positivity)
            (zpow_le_zpow_left₀ (by positivity) (by norm_num) (by norm_num))
      _ < 2 ^ ((m.log2 : ℤ) + 1) * 2 ^ e := mul_lt_mul_of_pos_right hlog (two_zpow_pos e)
      _ = 2 ^ ((m.log2 : ℤ) + 1 + e) := (zpow_add₀ (by norm_num) ..).symm
      _ ≤ 2 ^ (-1075 : ℤ) := two_zpow_le (by omega)
  · obtain ⟨k, rfl⟩ := Int.eq_ofNat_of_zero_le hsign
    exact (rounds_mul_ten_pow (Nat.pos_of_ne_zero hm) k _ _).roundsTo
  · obtain ⟨k, hk⟩ := Int.eq_ofNat_of_zero_le (show 0 ≤ -e by omega)
    obtain rfl : e = -k := by omega
    have hround := (rounds_div_ten_pow k (Nat.pos_of_ne_zero hm) (by positivity)).roundsTo
    simp only [neg_neg, Int.toNat_natCast]
    rwa [div_eq_mul_inv, ← zpow_natCast, ← zpow_neg] at hround

/-- A double that is read as a fraction with a positive numerator, and is not negative, has that
value. -/
theorem hasValue_of_num {x : Float} (hnum : (Magnitude.ofFloat x).num ≠ 0)
    (hneg : isNegative x = false) :
    HasValue x ((Magnitude.ofFloat x).num / (Magnitude.ofFloat x).den) := by
  unfold isNegative at hneg
  cases hx : x.toModel.unpack with
  | zero s => simp [Magnitude.ofFloat, hx, Magnitude.num] at hnum
  | notANumber => simp [Magnitude.ofFloat, hx, Magnitude.num] at hnum
  | infinity s => simp [Magnitude.ofFloat, hx, Magnitude.num] at hnum
  | finite s m e hm =>
    cases s with
    | negative => simp [hx] at hneg
    | positive =>
      have h := hasValue_of_unpack hx
      rwa [h.num_div_den, abs_of_nonneg (by simp only [sgn]; positivity)]

/-- The powers of ten in the table are exact. -/
theorem table_eq : ∀ k : Fin Float.exactlyRepresentablePowersOfTen.size,
    isNegative Float.exactlyRepresentablePowersOfTen[k] = false ∧
      (Magnitude.ofFloat Float.exactlyRepresentablePowersOfTen[k]).num =
        10 ^ k.val * (Magnitude.ofFloat Float.exactlyRepresentablePowersOfTen[k]).den := by
  decide +kernel

theorem hasValue_exactPower {e : ℕ} (he : e < Float.exactlyRepresentablePowersOfTen.size) :
    HasValue Float.exactlyRepresentablePowersOfTen[e] (10 ^ e) := by
  set x := Float.exactlyRepresentablePowersOfTen[e]
  obtain ⟨hneg, hnum⟩ : isNegative x = false ∧
    (Magnitude.ofFloat x).num = 10 ^ e * (Magnitude.ofFloat x).den := table_eq ⟨e, he⟩
  have hden : ((Magnitude.ofFloat x).den : ℚ) ≠ 0 := by exact_mod_cast (Magnitude.den_pos _).ne'
  have hpos : (Magnitude.ofFloat x).num ≠ 0 := by
    rw [hnum]
    exact (Nat.mul_pos (by positivity) (Magnitude.den_pos _)).ne'
  have h := hasValue_of_num hpos hneg
  rw [hnum] at h
  push_cast at h
  rwa [mul_div_cancel_right₀ _ hden] at h

end Binary64

/-! ## Signs -/

namespace Binary64

theorem isFinite_iff {x : Float} : x.isFinite = true ↔ ∃ q, HasValue x q := by
  change x.toModel.unpack.isFinite = true ↔ _
  unfold HasValue
  cases x.toModel.unpack with
  | notANumber => exact ⟨fun h => (by cases h), fun ⟨_, h⟩ => (by cases h)⟩
  | infinity s => exact ⟨fun h => (by cases h), fun ⟨_, h⟩ => (by cases h)⟩
  | zero s => exact ⟨fun _ => ⟨_, .zero s⟩, fun _ => rfl⟩
  | finite s m e hm => exact ⟨fun _ => ⟨_, .finite s m e hm⟩, fun _ => rfl⟩

theorem HasValue.abs_lt {x : Float} {q : ℚ} (h : HasValue x q) : |q| < 2 ^ (1024 : ℤ) := by
  have hfits := fits_unpack x.toModel
  unfold HasValue at h
  generalize x.toModel.unpack = u at h hfits
  cases h with
  | zero s => simp
  | finite s m e hm =>
    rw [abs_sgn_mul s (mul_nonneg (Nat.cast_nonneg m) (two_zpow_pos e).le)]
    exact hfits.1.exponent_le_iff.1 hfits.2

theorem HasValue.neg {x : Float} {q : ℚ} (h : HasValue x q) : HasValue (-x) (-q) := by
  have hfits := fits_unpack x.toModel
  unfold HasValue at h
  change Denotes (Float.Model.pack x.toModel.unpack.neg).unpack (-q)
  generalize x.toModel.unpack = u at h hfits
  cases h with
  | zero s =>
    rw [unpack_pack (by trivial), neg_zero]
    exact .zero (-s)
  | finite s m e hm =>
    have hneg : Fits (UnpackedFloat.finite s m e hm).neg := hfits
    rw [unpack_pack hneg, ← neg_mul, ← sgn_neg]
    exact .finite (-s) m e hm

theorem HasValue.isNegative_iff {x : Float} {q : ℚ} (h : HasValue x q) (hq : q ≠ 0) :
    isNegative x = true ↔ q < 0 := by
  unfold HasValue at h
  unfold isNegative
  generalize x.toModel.unpack = u at h
  cases h with
  | zero s => exact absurd rfl hq
  | finite s m e hm =>
    have hpos : 0 < (m : ℚ) * 2 ^ e := mul_pos (by exact_mod_cast hm) (two_zpow_pos e)
    cases s with
    | negative => simpa [sgn] using hpos
    | positive => simpa [sgn] using hpos.le

/-- A double is its sign and the double of its absolute value. -/
theorem HasValue.applySign_eq {x y : Float} {q : ℚ} (hx : HasValue x q) (hq : q ≠ 0)
    (hy : HasValue y |q|) : applySign (isNegative x) y = x := by
  unfold applySign
  split_ifs with hneg
  · have hlt := (hx.isNegative_iff hq).1 hneg
    rw [abs_of_neg hlt] at hy
    have := hy.neg
    rw [neg_neg] at this
    exact this.eq_of_ne_zero hx hq
  · have hle : 0 ≤ q := not_lt.1 fun hlt => hneg ((hx.isNegative_iff hq).2 hlt)
    rw [abs_of_nonneg hle] at hy
    exact hy.eq_of_ne_zero hx hq

/-- The two zeros. -/
theorem HasValue.applySign_zero {x : Float} (hx : HasValue x 0) :
    applySign (isNegative x) 0 = x := by
  have hzero : ∃ s, x.toModel.unpack = .zero s := by
    unfold HasValue at hx
    generalize x.toModel.unpack = u at hx
    generalize hr : (0 : ℚ) = r at hx
    cases hx with
    | zero s => exact ⟨s, rfl⟩
    | finite s m e hm =>
      have hpos : 0 < (m : ℚ) * 2 ^ e := mul_pos (by exact_mod_cast hm) (two_zpow_pos e)
      exact absurd hr.symm (mul_ne_zero (sgn_ne_zero s) hpos.ne')
  obtain ⟨s, hs⟩ := hzero
  have hx : x = .ofModel (.pack (.zero s)) := by rw [← hs, ofModel_pack_unpack]
  rw [hx]
  cases s <;> rfl

end Binary64

/-! ## Decimals -/

namespace Decimal

/-- The number that a decimal stands for. -/
def value (d : Decimal) : ℚ := d.coefficient * 10 ^ d.exponent

theorem value_nonneg (d : Decimal) : 0 ≤ d.value :=
  mul_nonneg (Nat.cast_nonneg _) (zpow_nonneg (by norm_num) _)

/-- **A decimal is read as the nearest double.** -/
theorem roundsTo_toFloat (d : Decimal) : RoundsTo d.value d.toFloat := by
  obtain ⟨m, e⟩ := d
  have hpos : (0 : ℚ) < 10 ^ e.natAbs := by positivity
  change RoundsTo (m * 10 ^ e) (Float.ofScientific m (e < 0) e.natAbs)
  unfold Float.ofScientific
  by_cases hsign : e < 0
  · have he : (m : ℚ) * 10 ^ e = m / 10 ^ e.natAbs := by
      rw [div_eq_mul_inv, ← zpow_natCast, ← zpow_neg, Int.natCast_natAbs, abs_of_neg hsign, neg_neg]
    simp only [hsign, decide_true, if_true]
    split_ifs with hshort
    · rw [he]
      exact (hasValue_toUInt64 hshort.1).roundsTo_div (hasValue_exactPower _) hpos.ne'
    · rw [Int.negOfNat_eq, Int.ofNat_eq_natCast, Int.ofNat_natAbs_of_nonpos hsign.le, neg_neg]
      exact roundsTo_ofScientific m e
  · have he : (m : ℚ) * 10 ^ e = m * 10 ^ e.natAbs := by
      rw [← zpow_natCast, Int.natCast_natAbs, abs_of_nonneg (not_lt.1 hsign)]
    simp only [hsign, decide_false, Bool.false_eq_true, if_false]
    split_ifs with hshort
    · rw [he]
      exact (hasValue_toUInt64 hshort.1).roundsTo_mul (hasValue_exactPower _)
    · rw [Int.ofNat_eq_natCast, Int.natAbs_of_nonneg (not_lt.1 hsign)]
      exact roundsTo_ofScientific m e

end Decimal

/-! ## The shortest decimal -/

/-- The number that a magnitude stands for. -/
def Magnitude.value (x : Magnitude) : ℚ := x.mantissa * 2 ^ x.exponent

theorem Binary64.HasValue.value_ofFloat {x : Float} {q : ℚ} (h : HasValue x q) :
    (Magnitude.ofFloat x).value = |q| := by
  unfold HasValue at h
  unfold Magnitude.ofFloat
  generalize x.toModel.unpack = u at h
  cases h with
  | zero s => simp [Magnitude.value]
  | finite s m e hm =>
    rw [abs_sgn_mul s (mul_nonneg (Nat.cast_nonneg m) (two_zpow_pos e).le)]
    rfl

theorem Binary64.HasValue.mantissa_eq_zero {x : Float} (h : HasValue x 0) :
    (Magnitude.ofFloat x).mantissa = 0 := by
  have hm := h.value_ofFloat
  rw [abs_zero, Magnitude.value, mul_eq_zero] at hm
  exact_mod_cast hm.resolve_right (two_zpow_pos _).ne'

/-- Only a finite double other than zero has a mantissa. -/
theorem exists_hasValue {x : Float} (h : (Magnitude.ofFloat x).mantissa ≠ 0) :
    ∃ q, HasValue x q := by
  rcases value_cases x with hnan | ⟨s, hinf⟩ | hq
  · simp [Magnitude.ofFloat, hnan] at h
  · simp [Magnitude.ofFloat, hinf] at h
  · exact hq

namespace Decimal

theorem value_exact (m : Magnitude) : (exact m).value = m.value := by
  unfold exact
  split_ifs with he
  · obtain ⟨k, hk⟩ := Int.eq_ofNat_of_zero_le he
    simp [value, Magnitude.value, Magnitude.num, hk]
  · obtain ⟨k, hk⟩ := Int.eq_ofNat_of_zero_le (show 0 ≤ -m.exponent by omega)
    have hexp : m.exponent = -k := by omega
    have hten : (10 : ℚ) ^ k = 5 ^ k * 2 ^ k := by rw [← mul_pow]; norm_num
    simp only [value, Magnitude.value, hexp, Int.natAbs_neg, Int.natAbs_natCast, zpow_neg,
      zpow_natCast, hten, Nat.pow_eq]
    push_cast
    field_simp

end Decimal

/-- **The shortest decimal of a double reads back as the double**, sign aside. -/
theorem nearest_shortest (tie : Tie) {x : Float} {q : ℚ} (h : HasValue x q) :
    nearest (shortest tie x).value = |q| := by
  have hself : nearest |q| = |q| := by
    rcases abs_choice q with ha | ha <;> rw [ha]
    · exact nearest_eq_self h.isDouble
    · exact nearest_eq_self h.isDouble.neg
  have hexact : nearest (Decimal.exact (Magnitude.ofFloat x)).value = |q| := by
    rw [Decimal.value_exact, h.value_ofFloat, hself]
  rw [shortest]
  split_ifs with hzero
  · rw [← h.value_ofFloat, Magnitude.value, hzero]
    simp [Decimal.value]
  split
  · next d hd =>
    split_ifs with hback
    · rw [← hback] at hzero
      obtain ⟨p, hp⟩ := exists_hasValue hzero
      obtain ⟨-, hround⟩ := d.roundsTo_toFloat.eq_of_hasValue hp
      have hnonneg := nearest_nonneg d.value_nonneg
      rw [← h.value_ofFloat, ← hback, hp.value_ofFloat, ← hround, abs_of_nonneg hnonneg]
    · exact hexact
  · exact hexact

end TierBudget
