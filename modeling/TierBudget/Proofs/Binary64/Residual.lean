import Mathlib
import TierBudget.Proofs.Binary64.Nearest
/-!
# Rounding with residual bits

The float model keeps a mantissa with two residual bits while it drops places, and rounds by them at
the end. `Marks` says which number such a mantissa stands for; shifting keeps it
(`Marks.shiftRight`) and rounding goes to the nearest whole number (`Marks.isNearestInt`). From
these follows `rounds_roundWithAccuracy`: whatever the operands were, the model's rounding step
gives the canonical form of `nearest`.
-/

namespace TierBudget.Binary64

open Float.Model Float.Model.UnpackedFloat

/-! ## What the residual bits say -/

/-- `x` lies where a mantissa with its residual bits says: the round bit is worth a half, the sticky
bit something between nothing and a half. -/
def Marks (em : ExtendedMantissa) (x : ℚ) : Prop :=
  let base : ℚ := em.mantissa + if em.roundBit then 1 / 2 else 0
  if em.stickyBit then base < x ∧ x < base + 1 / 2 else x = base

namespace Marks

variable {em : ExtendedMantissa} {x : ℚ}

theorem mantissa_le (h : Marks em x) : (em.mantissa : ℚ) ≤ x := by
  obtain ⟨m, r, s⟩ := em
  cases r <;> cases s <;> simp [Marks] at h ⊢ <;> linarith

theorem lt_mantissa_add_one (h : Marks em x) : x < em.mantissa + 1 := by
  obtain ⟨m, r, s⟩ := em
  cases r <;> cases s <;> simp [Marks] at h ⊢ <;> linarith

/-- The residual bits decide the rounding. -/
theorem isNearestInt (h : Marks em x) : IsNearestInt x em.roundedMantissa := by
  obtain ⟨m, r, s⟩ := em
  have hval : (m : ℚ) - x = -(x - m) := by ring
  cases r <;> cases s <;> simp only [Marks, ExtendedMantissa.roundedMantissa,
    ExtendedMantissa.accuracy, Accuracy.roundToNearestEven, Bool.false_eq_true, if_false,
    if_true, add_zero] at h ⊢
  · -- exact
    subst h
    exact_mod_cast IsNearestInt.intCast m
  · -- below the half
    refine ⟨?_, fun ht => ?_⟩
    · rw [abs_le]
      push_cast
      constructor <;> linarith
    · rw [abs_of_nonneg (by push_cast; linarith)] at ht
      push_cast at ht
      linarith
  · -- the half itself goes to the even neighbour
    rcases Nat.mod_two_eq_zero_or_one m with hm | hm
    · rw [hm]
      refine ⟨by rw [h]; norm_num, fun _ => ?_⟩
      exact_mod_cast Nat.even_iff.2 hm
    · rw [hm]
      refine ⟨by rw [h, abs_le]; push_cast; constructor <;> linarith, fun _ => ?_⟩
      exact_mod_cast (show Even (m + 1) by rw [Nat.even_iff]; omega)
  · -- above the half
    refine ⟨?_, fun ht => ?_⟩
    · rw [abs_le]
      push_cast
      constructor <;> linarith
    · rw [abs_of_nonpos (by push_cast; linarith)] at ht
      push_cast at ht
      linarith

theorem shiftRightOne (h : Marks em x) : Marks em.shiftRightOne (x / 2) := by
  obtain ⟨m, r, s⟩ := em
  have hcast : ((m / 2 : ℕ) : ℚ) = (m - (m % 2 : ℕ)) / 2 := by
    have := Nat.div_add_mod m 2
    have : ((2 * (m / 2) + m % 2 : ℕ) : ℚ) = m := by exact_mod_cast this
    push_cast at this ⊢
    linarith
  rcases Nat.mod_two_eq_zero_or_one m with hm | hm <;> cases r <;> cases s <;>
    simp [Marks, ExtendedMantissa.shiftRightOne, hm, hcast] at h ⊢ <;>
    first | linarith | (constructor <;> linarith)

theorem shiftRight (h : Marks em x) (n : ℕ) : Marks (em >>> n) (x / 2 ^ n) := by
  change Marks (n.repeat ExtendedMantissa.shiftRightOne em) _
  induction n with
  | zero => simpa [Nat.repeat] using h
  | succ n ih =>
    rw [Nat.repeat, pow_succ, ← div_div]
    exact ih.shiftRightOne

end Marks

theorem marks_exact (m : ℕ) : Marks (.ofMantissaAndAccuracy m .exact) m := by
  simp [Marks, ExtendedMantissa.ofMantissaAndAccuracy]

/-- A quotient with its remainder. -/
theorem marks_accuracyOfFraction (m num den : ℕ) (h : num < den) :
    Marks (.ofMantissaAndAccuracy m (accuracyOfFraction num den)) (m + num / den) := by
  have hden : (0 : ℚ) < den := by exact_mod_cast (by omega : 0 < den)
  have hlt : (num : ℚ) / den < 1 := by
    rw [div_lt_one hden]
    exact_mod_cast h
  unfold accuracyOfFraction
  split_ifs with h0
  · simpa [h0] using marks_exact m
  have hpos : (0 : ℚ) < num / den := div_pos (by exact_mod_cast Nat.pos_of_ne_zero h0) hden
  rcases hc : compare (2 * num) den with _ | _ | _
  · have : (num : ℚ) / den < 1 / 2 := by
      rw [div_lt_div_iff₀ hden (by norm_num)]
      exact_mod_cast (by have := Nat.compare_eq_lt.1 hc; omega : num * 2 < 1 * den)
    simp only [Marks, ExtendedMantissa.ofMantissaAndAccuracy, if_true, Bool.false_eq_true, if_false]
    constructor <;> linarith
  · have : (num : ℚ) / den = 1 / 2 := by
      rw [div_eq_div_iff hden.ne' (by norm_num)]
      exact_mod_cast (by have := Nat.compare_eq_eq.1 hc; omega : num * 2 = 1 * den)
    simp only [Marks, ExtendedMantissa.ofMantissaAndAccuracy, if_true, Bool.false_eq_true, if_false]
    linarith
  · have : 1 / 2 < (num : ℚ) / den := by
      rw [div_lt_div_iff₀ (by norm_num) hden]
      exact_mod_cast (by have := Nat.compare_eq_gt.1 hc; omega : 1 * den < num * 2)
    simp only [Marks, ExtendedMantissa.ofMantissaAndAccuracy, if_true]
    constructor <;> linarith

/-! ## Canonical forms -/

/-- The mantissa has 53 digits, or fewer at the lowest exponent. -/
structure IsCanonical (m : ℕ) (e : ℤ) : Prop where
  lt : m < 2 ^ 53
  le : -1074 ≤ e
  full : 2 ^ 52 ≤ m ∨ e = -1074

theorem IsCanonical.lastPlace_eq {m : ℕ} {e : ℤ} (h : IsCanonical m e) (hm : 0 < m) :
    lastPlace (m * 2 ^ e) = e := by
  have hpos : (0 : ℚ) < m := by exact_mod_cast hm
  have habs : |(m : ℚ) * 2 ^ e| = m * 2 ^ e := abs_of_pos (mul_pos hpos (two_zpow_pos e))
  refine Binary64.lastPlace_eq (mul_pos hpos (two_zpow_pos e)).ne' h.le ?_ (h.full.imp_left ?_)
  · rw [habs, add_comm, zpow_add₀ (by norm_num)]
    exact mul_lt_mul_of_pos_right (by exact_mod_cast h.lt) (two_zpow_pos e)
  · intro hfull
    rw [habs, add_comm, zpow_add₀ (by norm_num)]
    exact mul_le_mul_of_nonneg_right (by exact_mod_cast hfull) (two_zpow_pos e).le

theorem IsCanonical.isDouble {m : ℕ} {e : ℤ} (h : IsCanonical m e) : IsDouble (m * 2 ^ e) :=
  ⟨m, e, by rw [abs_of_nonneg (by omega)]; exact_mod_cast h.lt.le, h.le, by simp⟩

/-- A canonical form is determined by its value. -/
theorem IsCanonical.eq_of_value_eq {m m' : ℕ} {e e' : ℤ} (h : IsCanonical m e)
    (h' : IsCanonical m' e') (hm : 0 < m) (hm' : 0 < m')
    (heq : (m : ℚ) * 2 ^ e = m' * 2 ^ e') : m = m' ∧ e = e' := by
  obtain rfl : e = e' := by rw [← h.lastPlace_eq hm, ← h'.lastPlace_eq hm', heq]
  exact ⟨by exact_mod_cast mul_right_cancel₀ (two_zpow_pos e).ne' heq, rfl⟩

theorem targetExponent_eq (t : ℤ) : Format.binary64.targetExponent t = max (t - 53) (-1074) := by
  simp [Format.targetExponent, Format.mantissaBits, Format.minExponent]

/-- The exponent that the model rounds at is the last place of the number. -/
theorem targetExponent_eq_lastPlace {m : ℕ} {e : ℤ} {x : ℚ} (hx : 0 < x) (hle : (m : ℚ) ≤ x)
    (hlt : x < m + 1) (hm : m ≠ 0 ∨ e ≤ -1074) :
    Format.binary64.targetExponent (totalExponent m e) = lastPlace (x * 2 ^ e) := by
  have habs : |x * 2 ^ e| = x * 2 ^ e := abs_of_pos (mul_pos hx (two_zpow_pos e))
  rw [targetExponent_eq, totalExponent]
  symm
  have hupper : |x * 2 ^ e| < 2 ^ ((m.log2 : ℤ) + 1 + e) := by
    have h : (m : ℚ) + 1 ≤ 2 ^ (m.log2 + 1) := by exact_mod_cast Nat.lt_log2_self
    rw [habs, zpow_add₀ (by norm_num)]
    exact mul_lt_mul_of_pos_right (hlt.trans_le (by exact_mod_cast h)) (two_zpow_pos e)
  refine lastPlace_eq (mul_pos hx (two_zpow_pos e)).ne' (le_max_right _ _)
    (hupper.trans_le (two_zpow_le (by omega))) ?_
  rw [or_iff_not_imp_right]
  intro hne
  have hm0 : m ≠ 0 := by
    rintro rfl
    simp at hm hne
    omega
  have h : (2 : ℚ) ^ m.log2 ≤ m := by exact_mod_cast Nat.log2_self_le hm0
  rw [habs, show max ((m.log2 : ℤ) + 1 + e - 53) (-1074) + 52 = m.log2 + e by omega,
    zpow_add₀ (by norm_num)]
  exact mul_le_mul_of_nonneg_right ((by exact_mod_cast h : (2 : ℚ) ^ (m.log2 : ℤ) ≤ m).trans hle)
    (two_zpow_pos e).le

/-! ## The rounding step -/

/-- Rounding the mantissa up to `2 ^ 53` moves it one place on, which loses nothing. -/
theorem shiftToTargetExponent_of_le {m : ℕ} {e : ℤ} (hm : m ≤ 2 ^ 53) (he : -1074 ≤ e) :
    shiftToTargetExponent Format.binary64 m e .exact =
      if m = 2 ^ 53 then (⟨2 ^ 52, false, false⟩, e + 1) else (⟨m, false, false⟩, e) := by
  rw [shiftToTargetExponent, targetExponent_eq, totalExponent, shiftToExponent]
  split_ifs with h
  · subst h
    rw [Nat.log2_two_pow, show (max (((53 : ℕ) : ℤ) + 1 + e - 53) (-1074) - e).toNat = 1 by omega]
    rfl
  · have hlog : m.log2 ≤ 52 := by
      rcases Nat.eq_zero_or_pos m with rfl | hpos
      · simp
      · have := (Nat.log2_lt hpos.ne').2 (show m < 2 ^ 53 by omega)
        omega
    rw [show (max ((m.log2 : ℤ) + 1 + e - 53) (-1074) - e).toNat = 0 by omega]
    simp only [Nat.cast_zero, add_zero]
    rfl

/-- The sign of a number as a factor. -/
def sgn : Sign → ℚ
  | .positive => 1
  | .negative => -1

theorem nearest_sgn_mul (s : Sign) (q : ℚ) : nearest (sgn s * q) = sgn s * nearest q := by
  cases s <;> simp [sgn]

/-- What an operation owes whose exact result is `q`: the canonical form of the nearest double,
whatever its size. -/
def Rounds (q : ℚ) : UnpackedFloat → Prop
  | .zero _ => nearest q = 0
  | .finite s m e _ => IsCanonical m e ∧ sgn s * (m * 2 ^ e) = nearest q
  | _ => False

/-- The second shift, after the mantissa was rounded. -/
theorem rounds_carry (s : Sign) {r : ℕ} {t : ℤ} {q : ℚ} (hr : r ≤ 2 ^ 53) (ht : -1074 ≤ t)
    (hfull : r = 0 ∨ 2 ^ 52 ≤ r ∨ t = -1074) (hq : r * 2 ^ t = nearest q) :
    Rounds (sgn s * q) (let f := shiftToTargetExponent Format.binary64 r t .exact
      if h : f.1.mantissa = 0 then .zero s
      else .finite s f.1.mantissa f.2 (Nat.pos_of_ne_zero h)) := by
  rw [shiftToTargetExponent_of_le hr ht]
  by_cases htop : r = 2 ^ 53
  · subst htop
    rw [if_pos rfl]
    refine ⟨⟨by norm_num, by omega, .inl le_rfl⟩, ?_⟩
    rw [nearest_sgn_mul, ← hq, zpow_add₀ (by norm_num)]
    push_cast
    ring
  · simp only [if_neg htop]
    split_ifs with h0
    · change nearest _ = 0
      rw [nearest_sgn_mul, ← hq, h0]
      simp
    · exact ⟨⟨by omega, ht, hfull.resolve_left h0⟩, by rw [nearest_sgn_mul, ← hq]⟩

/-- **The model rounds to the nearest double.** The mantissa must not have too few digits for its
exponent, since rounding only drops places. -/
theorem rounds_roundWithAccuracy (s : Sign) {m : ℕ} {e : ℤ} {acc : Accuracy} {x : ℚ}
    (hx : Marks (.ofMantissaAndAccuracy m acc) x) (hm : m ≠ 0 ∨ e ≤ -1074)
    (he : e ≤ Format.binary64.targetExponent (totalExponent m e)) :
    Rounds (sgn s * (x * 2 ^ e)) (roundWithAccuracy Format.binary64 s m e acc) := by
  have hmant : (ExtendedMantissa.ofMantissaAndAccuracy m acc).mantissa = m := by
    rcases acc with _ | (_ | _ | _) <;> rfl
  have hle : (m : ℚ) ≤ x := hmant ▸ hx.mantissa_le
  have hlt : x < m + 1 := hmant ▸ hx.lt_mantissa_add_one
  set t := Format.binary64.targetExponent (totalExponent m e) with ht
  obtain ⟨k, hk⟩ := Int.le.dest he
  have hshift : (t - e).toNat = k := by omega
  set r := (ExtendedMantissa.ofMantissaAndAccuracy m acc >>> k).roundedMantissa with hr
  have hround : roundEven (x / 2 ^ k) = r := (hx.shiftRight k).isNearestInt.roundEven_eq
  have hmin : -1074 ≤ t := by
    rw [ht, targetExponent_eq]
    exact le_max_right _ _
  -- the number on the grid of the target exponent
  have hgrid : x * 2 ^ e / 2 ^ t = x / 2 ^ k := by
    rw [← hk, zpow_add₀ (by norm_num), zpow_natCast]
    field_simp
  have hfirst : shiftToTargetExponent Format.binary64 m e acc =
      (ExtendedMantissa.ofMantissaAndAccuracy m acc >>> k, t) := by
    rw [shiftToTargetExponent, ← ht, shiftToExponent, hshift, hk]
  rw [roundWithAccuracy, hfirst]
  rcases (Nat.cast_nonneg m |>.trans hle).eq_or_lt with rfl | hpos
  · have h0 : r = 0 := by
      have : roundEven 0 = 0 := by simpa using roundEven_intCast 0
      rw [zero_div, this] at hround
      exact_mod_cast hround.symm
    exact rounds_carry s (r := r) (by omega) hmin (.inl h0) (by rw [h0]; simp)
  · have hlast : t = lastPlace (x * 2 ^ e) := targetExponent_eq_lastPlace hpos hle hlt hm
    have hq : (r : ℚ) * 2 ^ t = nearest (x * 2 ^ e) := by
      rw [nearest, ← hlast, hgrid, hround, Int.cast_natCast]
    have hqpos : 0 < x * 2 ^ e := mul_pos hpos (two_zpow_pos e)
    refine rounds_carry s ?_ hmin ?_ hq
    · have h := nearest_le_two_zpow hqpos
      rw [← hlast, ← hq, add_comm, zpow_add₀ (by norm_num)] at h
      exact_mod_cast le_of_mul_le_mul_right h (two_zpow_pos t)
    · refine .inr (or_iff_not_imp_right.2 fun hne => ?_)
      have h := two_zpow_le_nearest hqpos (by omega)
      rw [← hlast, ← hq, add_comm, zpow_add₀ (by norm_num)] at h
      exact_mod_cast le_of_mul_le_mul_right h (two_zpow_pos t)

end TierBudget.Binary64
