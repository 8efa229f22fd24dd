import Mathlib.Data.Int.Log
import Mathlib.Data.Rat.Floor
import Mathlib.Algebra.Order.Archimedean.Basic
import Mathlib.Tactic.FieldSimp
import Mathlib.Tactic.Linarith
import Mathlib.Tactic.Positivity
import Mathlib.Tactic.Ring
/-!
# Rounding to a double

The arithmetic of doubles, without their bits. `roundEven` is the whole number nearest to a
rational, a half going to the even one, and `nearest` does the same on the grid of the doubles
around the number: 53 binary digits, but no place below `2 ^ -1074`. Range is left aside, so there
is no largest number here.

What every later bound rests on: `nearest` is monotone (`nearest_mono`), fixes the numbers that are
doubles (`nearest_eq_self`), and moves a number by at most half its last place
(`abs_nearest_sub_le`), which is a `2 ^ 53`-th part of it above the subnormal numbers
(`abs_nearest_sub_le_mul`).
-/

namespace TierBudget.Binary64

/-! ## Nearest whole numbers -/

/-- `n` is nearest to `q`, and even if it is not the only one. -/
structure IsNearestInt (q : ℚ) (n : ℤ) : Prop where
  dist_le : |q - n| ≤ 1 / 2
  even_of_tie : |q - n| = 1 / 2 → Even n

namespace IsNearestInt

theorem le_of_le {x y : ℚ} {m n : ℤ} (hm : IsNearestInt x m) (hn : IsNearestInt y n) (h : x ≤ y) :
    m ≤ n := by
  by_contra hlt
  have hx := abs_le.1 hm.dist_le
  have hy := abs_le.1 hn.dist_le
  have hmn : (n : ℚ) + 1 ≤ m := by exact_mod_cast (not_le.1 hlt)
  -- both are ties between the same two neighbours, and only one of those is even
  have hm1 : m = n + 1 := by
    have : (m : ℚ) ≤ n + 1 := by linarith
    have : m ≤ n + 1 := by exact_mod_cast this
    omega
  subst hm1
  push_cast at hx hmn
  have e₁ : Even (n + 1) := hm.even_of_tie (by
    rw [abs_eq (by norm_num)]
    right
    push_cast
    linarith)
  have e₂ : Even n := hn.even_of_tie (by rw [abs_eq (by norm_num)]; left; linarith)
  exact Int.even_add_one.1 e₁ e₂

theorem unique {q : ℚ} {m n : ℤ} (hm : IsNearestInt q m) (hn : IsNearestInt q n) : m = n :=
  le_antisymm (hm.le_of_le hn le_rfl) (hn.le_of_le hm le_rfl)

theorem intCast (n : ℤ) : IsNearestInt n n := ⟨by simp, fun h => by norm_num at h⟩

theorem neg {q : ℚ} {n : ℤ} (h : IsNearestInt q n) : IsNearestInt (-q) (-n) := by
  have e : |(-q : ℚ) - ((-n : ℤ) : ℚ)| = |q - n| := by
    rw [← abs_neg]
    push_cast
    ring_nf
  exact ⟨e ▸ h.dist_le, fun ht => (h.even_of_tie (e ▸ ht)).neg⟩

end IsNearestInt

/-- The whole number nearest to `q`, a half going to the even one. -/
def roundEven (q : ℚ) : ℤ :=
  if q - ⌊q⌋ < 1 / 2 then ⌊q⌋
  else if q - ⌊q⌋ = 1 / 2 then ⌊q⌋ + ⌊q⌋ % 2
  else ⌊q⌋ + 1

theorem isNearestInt_roundEven (q : ℚ) : IsNearestInt q (roundEven q) := by
  have h₀ := Int.floor_le q
  have h₁ := Int.lt_floor_add_one q
  unfold roundEven
  split_ifs with hlt heq
  · exact ⟨by rw [abs_le]; constructor <;> linarith, fun ht => by
      rw [abs_of_nonneg (by linarith)] at ht
      linarith⟩
  · rcases Int.emod_two_eq_zero_or_one ⌊q⌋ with hm | hm
    · rw [hm, add_zero]
      exact ⟨by rw [heq]; norm_num, fun _ => Int.even_iff.2 hm⟩
    · rw [hm]
      refine ⟨by rw [abs_le]; push_cast; constructor <;> linarith, fun _ => ?_⟩
      rw [Int.even_iff]
      omega
  · have hgt : 1 / 2 < q - ⌊q⌋ := lt_of_le_of_ne (not_lt.1 hlt) (Ne.symm heq)
    refine ⟨by rw [abs_le]; push_cast; constructor <;> linarith, fun ht => ?_⟩
    rw [abs_of_nonpos (by push_cast; linarith)] at ht
    push_cast at ht
    linarith

theorem IsNearestInt.roundEven_eq {q : ℚ} {n : ℤ} (h : IsNearestInt q n) : roundEven q = n :=
  (isNearestInt_roundEven q).unique h

theorem roundEven_mono {x y : ℚ} (h : x ≤ y) : roundEven x ≤ roundEven y :=
  (isNearestInt_roundEven x).le_of_le (isNearestInt_roundEven y) h

@[simp] theorem roundEven_intCast (n : ℤ) : roundEven n = n := (IsNearestInt.intCast n).roundEven_eq

theorem roundEven_neg (q : ℚ) : roundEven (-q) = -roundEven q :=
  (isNearestInt_roundEven q).neg.roundEven_eq

theorem le_roundEven {n : ℤ} {q : ℚ} (h : (n : ℚ) ≤ q) : n ≤ roundEven q := by
  simpa using roundEven_mono h

theorem roundEven_le {n : ℤ} {q : ℚ} (h : q ≤ n) : roundEven q ≤ n := by
  simpa using roundEven_mono h

/-! ## The last place of a number -/

theorem two_zpow_pos (e : ℤ) : (0 : ℚ) < 2 ^ e := zpow_pos (by norm_num) e

theorem two_zpow_le {d e : ℤ} (h : d ≤ e) : (2 : ℚ) ^ d ≤ 2 ^ e :=
  zpow_le_zpow_right₀ (by norm_num) h

/-- The exponent of the last binary place that a double near `q` has. -/
def lastPlace (q : ℚ) : ℤ := max (Int.log 2 |q| - 52) (-1074)

theorem lastPlace_neg (q : ℚ) : lastPlace (-q) = lastPlace q := by simp [lastPlace]

theorem le_lastPlace (q : ℚ) : -1074 ≤ lastPlace q := le_max_right _ _

theorem abs_lt_of_lastPlace (q : ℚ) : |q| < 2 ^ (lastPlace q + 53) := by
  have h : |q| < ((2 : ℕ) : ℚ) ^ (Int.log 2 |q| + 1) := Int.lt_zpow_succ_log_self (by norm_num) _
  have hle : Int.log 2 |q| - 52 ≤ lastPlace q := le_max_left _ _
  exact h.trans_le (by exact_mod_cast two_zpow_le (by omega))

theorem le_abs_of_lastPlace {q : ℚ} (hq : q ≠ 0) (h : -1074 < lastPlace q) :
    2 ^ (lastPlace q + 52) ≤ |q| := by
  have hlog : ((2 : ℕ) : ℚ) ^ Int.log 2 |q| ≤ |q| :=
    Int.zpow_log_le_self (by norm_num) (abs_pos.2 hq)
  have he : lastPlace q + 52 = Int.log 2 |q| := by
    simp only [lastPlace] at h ⊢
    omega
  rw [he]
  exact_mod_cast hlog

theorem lastPlace_le_of_abs_lt {q : ℚ} (hq : q ≠ 0) {e : ℤ} (he : -1074 ≤ e)
    (h : |q| < 2 ^ (e + 53)) : lastPlace q ≤ e := by
  by_contra hlt
  have hle := le_abs_of_lastPlace hq (by omega)
  exact absurd (hle.trans_lt h) (not_lt.2 (two_zpow_le (by omega)))

/-- Where the exponent is known from a bracket, as for a mantissa of 53 digits. -/
theorem lastPlace_eq {q : ℚ} (hq : q ≠ 0) {e : ℤ} (he : -1074 ≤ e) (hlt : |q| < 2 ^ (e + 53))
    (hle : 2 ^ (e + 52) ≤ |q| ∨ e = -1074) : lastPlace q = e := by
  refine le_antisymm (lastPlace_le_of_abs_lt hq he hlt) ?_
  rcases hle with hle | rfl
  · by_contra hne
    have := abs_lt_of_lastPlace q
    exact absurd (hle.trans_lt this) (not_lt.2 (two_zpow_le (by omega)))
  · exact le_lastPlace q

/-! ## Nearest doubles -/

/-- The double nearest to `q`, a half going to the one with an even mantissa. -/
def nearest (q : ℚ) : ℚ := roundEven (q / 2 ^ lastPlace q) * 2 ^ lastPlace q

@[simp] theorem nearest_zero : nearest 0 = 0 := by
  have h : roundEven 0 = 0 := by simpa using roundEven_intCast 0
  simp [nearest, h]

@[simp] theorem nearest_neg (q : ℚ) : nearest (-q) = -nearest q := by
  simp [nearest, lastPlace_neg, neg_div, roundEven_neg]

theorem nearest_nonneg {q : ℚ} (h : 0 ≤ q) : 0 ≤ nearest q := by
  have hr : 0 ≤ roundEven (q / 2 ^ lastPlace q) :=
    le_roundEven (by simpa using div_nonneg h (two_zpow_pos (lastPlace q)).le)
  have : (0 : ℚ) ≤ roundEven (q / 2 ^ lastPlace q) := by exact_mod_cast hr
  exact mul_nonneg this (two_zpow_pos _).le

/-- Rounding a positive number stays within the bracket of its last place. -/
theorem nearest_le_two_zpow {q : ℚ} (h : 0 < q) : nearest q ≤ 2 ^ (lastPlace q + 53) := by
  have hlt := abs_lt_of_lastPlace q
  rw [abs_of_pos h] at hlt
  have hr : roundEven (q / 2 ^ lastPlace q) ≤ 2 ^ 53 := roundEven_le (by
    rw [div_le_iff₀ (two_zpow_pos _)]
    push_cast
    rw [add_comm, zpow_add₀ (by norm_num)] at hlt
    exact_mod_cast hlt.le)
  have : (roundEven (q / 2 ^ lastPlace q) : ℚ) ≤ 2 ^ 53 := by exact_mod_cast hr
  rw [nearest, add_comm, zpow_add₀ (by norm_num)]
  exact mul_le_mul_of_nonneg_right (by exact_mod_cast this) (two_zpow_pos _).le

theorem two_zpow_le_nearest {q : ℚ} (h : 0 < q) (he : -1074 < lastPlace q) :
    2 ^ (lastPlace q + 52) ≤ nearest q := by
  have hle := le_abs_of_lastPlace h.ne' he
  rw [abs_of_pos h] at hle
  have hr : 2 ^ 52 ≤ roundEven (q / 2 ^ lastPlace q) := le_roundEven (by
    rw [le_div_iff₀ (two_zpow_pos _)]
    push_cast
    rw [add_comm, zpow_add₀ (by norm_num)] at hle
    exact_mod_cast hle)
  have : (2 : ℚ) ^ 52 ≤ roundEven (q / 2 ^ lastPlace q) := by exact_mod_cast hr
  rw [nearest, add_comm, zpow_add₀ (by norm_num)]
  exact mul_le_mul_of_nonneg_right (by exact_mod_cast this) (two_zpow_pos _).le

theorem nearest_mono_of_nonneg {x y : ℚ} (hx : 0 ≤ x) (h : x ≤ y) : nearest x ≤ nearest y := by
  rcases hx.eq_or_lt with rfl | hx
  · simpa using nearest_nonneg h
  have hy : 0 < y := hx.trans_le h
  have hle : lastPlace x ≤ lastPlace y :=
    lastPlace_le_of_abs_lt hx.ne' (le_lastPlace y) (by
      rw [abs_of_pos hx]
      exact h.trans_lt ((le_abs_self y).trans_lt (abs_lt_of_lastPlace y)))
  rcases hle.eq_or_lt with heq | hlt
  · -- one grid for both
    rw [nearest, nearest, heq]
    have := roundEven_mono (div_le_div_of_nonneg_right h (two_zpow_pos (lastPlace y)).le)
    exact mul_le_mul_of_nonneg_right (by exact_mod_cast this) (two_zpow_pos _).le
  · -- a power of two lies between
    calc nearest x ≤ 2 ^ (lastPlace x + 53) := nearest_le_two_zpow hx
      _ ≤ 2 ^ (lastPlace y + 52) := two_zpow_le (by omega)
      _ ≤ nearest y := two_zpow_le_nearest hy (by have := le_lastPlace x; omega)

/-- **Rounding is monotone.** -/
theorem nearest_mono {x y : ℚ} (h : x ≤ y) : nearest x ≤ nearest y := by
  rcases le_total 0 x with hx | hx
  · exact nearest_mono_of_nonneg hx h
  · rcases le_total 0 y with hy | hy
    · have hx' := nearest_nonneg (neg_nonneg.2 hx)
      rw [nearest_neg] at hx'
      linarith [nearest_nonneg hy]
    · have := nearest_mono_of_nonneg (neg_nonneg.2 hy) (neg_le_neg h)
      rw [nearest_neg, nearest_neg] at this
      linarith

/-! ## Numbers that are doubles -/

/-- The numbers with 53 binary digits and no place below `2 ^ -1074`. -/
def IsDouble (q : ℚ) : Prop := ∃ m e : ℤ, |m| ≤ 2 ^ 53 ∧ -1074 ≤ e ∧ q = m * 2 ^ e

theorem isDouble_two_zpow {e : ℤ} (h : -1074 ≤ e) : IsDouble (2 ^ e) :=
  ⟨1, e, by norm_num, h, by simp⟩

theorem isDouble_intCast {m : ℤ} (h : |m| ≤ 2 ^ 53) : IsDouble m := ⟨m, 0, h, by norm_num, by simp⟩

theorem isDouble_natCast {n : ℕ} (h : n ≤ 2 ^ 53) : IsDouble n := by
  simpa using isDouble_intCast (m := n) (by rw [abs_of_nonneg (by omega)]; exact_mod_cast h)

/-- A mantissa may be as large as `2 ^ 53`, which is `2 ^ 52` one place higher. -/
theorem lastPlace_le_of_eq {q : ℚ} (hq : q ≠ 0) {m e : ℤ} (hm : |m| < 2 ^ 53) (he : -1074 ≤ e)
    (h : q = m * 2 ^ e) : lastPlace q ≤ e := by
  refine lastPlace_le_of_abs_lt hq he ?_
  rw [h, abs_mul, abs_of_pos (two_zpow_pos e), add_comm, zpow_add₀ (by norm_num)]
  exact mul_lt_mul_of_pos_right (by exact_mod_cast hm) (two_zpow_pos e)

theorem nearest_eq_of_lastPlace_le {q : ℚ} {m e : ℤ} (h : q = m * 2 ^ e) (hle : lastPlace q ≤ e) :
    nearest q = q := by
  obtain ⟨k, hk⟩ := Int.le.dest hle
  have hq : q = ((m * 2 ^ k : ℤ) : ℚ) * 2 ^ lastPlace q := by
    calc q = m * 2 ^ (lastPlace q + (k : ℤ)) := by rw [hk]; exact h
      _ = ((m * 2 ^ k : ℤ) : ℚ) * 2 ^ lastPlace q := by
        rw [zpow_add₀ (by norm_num), zpow_natCast]
        push_cast
        ring
  have hdiv : q / 2 ^ lastPlace q = ((m * 2 ^ k : ℤ) : ℚ) :=
    (div_eq_iff (two_zpow_pos _).ne').2 hq
  rw [nearest, hdiv, roundEven_intCast, ← hq]

/-- **Doubles are fixed.** -/
theorem nearest_eq_self {q : ℚ} (h : IsDouble q) : nearest q = q := by
  obtain ⟨m, e, hm, he, h⟩ := h
  rcases eq_or_ne q 0 with rfl | hq
  · exact nearest_zero
  rcases hm.lt_or_eq with hm | hm
  · exact nearest_eq_of_lastPlace_le h (lastPlace_le_of_eq hq hm he h)
  · obtain ⟨s, hs, rfl⟩ : ∃ s : ℤ, |s| < 2 ^ 53 ∧ m = s * 2 := by
      rcases (abs_eq (show (0 : ℤ) ≤ 2 ^ 53 by norm_num)).1 hm with rfl | rfl
      · exact ⟨2 ^ 52, by norm_num, by norm_num⟩
      · exact ⟨-2 ^ 52, by norm_num, by norm_num⟩
    have h' : q = s * 2 ^ (e + 1) := by
      rw [h, zpow_add₀ (by norm_num)]
      push_cast
      ring
    exact nearest_eq_of_lastPlace_le h' (lastPlace_le_of_eq hq hs (by omega) h')

theorem le_nearest {a q : ℚ} (ha : IsDouble a) (h : a ≤ q) : a ≤ nearest q :=
  (nearest_eq_self ha).symm.le.trans (nearest_mono h)

theorem nearest_le {a q : ℚ} (ha : IsDouble a) (h : q ≤ a) : nearest q ≤ a :=
  (nearest_mono h).trans (nearest_eq_self ha).le

theorem IsDouble.neg {q : ℚ} (h : IsDouble q) : IsDouble (-q) := by
  obtain ⟨m, e, hm, he, rfl⟩ := h
  exact ⟨-m, e, by rwa [abs_neg], he, by push_cast; ring⟩

theorem abs_nearest_le {a q : ℚ} (ha : IsDouble a) (h : |q| ≤ a) : |nearest q| ≤ a := by
  rw [abs_le] at h ⊢
  exact ⟨le_nearest ha.neg h.1, nearest_le ha h.2⟩

/-! ## Errors -/

/-- **Rounding moves a number by at most half its last place.** -/
theorem abs_nearest_sub_le (q : ℚ) : |nearest q - q| ≤ 2 ^ lastPlace q / 2 := by
  have h := (isNearestInt_roundEven (q / 2 ^ lastPlace q)).dist_le
  have e : nearest q - q =
      -((q / 2 ^ lastPlace q - roundEven (q / 2 ^ lastPlace q)) * 2 ^ lastPlace q) := by
    rw [nearest, sub_mul, div_mul_cancel₀ _ (two_zpow_pos _).ne']
    ring
  rw [e, abs_neg, abs_mul, abs_of_pos (two_zpow_pos (lastPlace q))]
  calc _ ≤ 1 / 2 * (2 : ℚ) ^ lastPlace q := mul_le_mul_of_nonneg_right h (two_zpow_pos _).le
    _ = _ := by ring

/-- The relative error above the subnormal numbers. -/
theorem abs_nearest_sub_le_mul {q : ℚ} (h : 2 ^ (-1022 : ℤ) ≤ |q|) :
    |nearest q - q| ≤ |q| / 2 ^ 53 := by
  have hq : q ≠ 0 := abs_pos.1 ((two_zpow_pos _).trans_le h)
  have hle : 2 ^ (lastPlace q + 52) ≤ |q| := by
    rcases (le_lastPlace q).eq_or_lt with he | he
    · rw [← he]
      exact h
    · exact le_abs_of_lastPlace hq he
  refine (abs_nearest_sub_le q).trans ?_
  rw [zpow_add₀ (by norm_num)] at hle
  rw [div_le_div_iff₀ (by norm_num) (by positivity)]
  have : (2 : ℚ) ^ (53 : ℕ) = 2 ^ (52 : ℤ) * 2 := by norm_num
  rw [this]
  nlinarith

/-- The absolute error up to a power of two, which is a double itself. -/
theorem abs_nearest_sub_le_of_abs_le {q : ℚ} {k : ℤ} (hk : -1021 ≤ k) (h : |q| ≤ 2 ^ k) :
    |nearest q - q| ≤ 2 ^ (k - 54) := by
  rcases h.lt_or_eq with h | h
  · rcases eq_or_ne q 0 with rfl | hq
    · simpa using (two_zpow_pos (k - 54)).le
    have hle : lastPlace q ≤ k - 53 := lastPlace_le_of_abs_lt hq (by omega) (by simpa using h)
    calc |nearest q - q| ≤ 2 ^ lastPlace q / 2 := abs_nearest_sub_le q
      _ ≤ 2 ^ (k - 53) / 2 := by gcongr; norm_num
      _ = 2 ^ (k - 54) := by
        rw [show k - 53 = k - 54 + 1 by ring, zpow_add₀ (by norm_num)]
        simp
  · have hd : IsDouble q := by
      rcases (abs_eq (two_zpow_pos k).le).1 h with rfl | rfl
      · exact isDouble_two_zpow (by omega)
      · exact (isDouble_two_zpow (by omega)).neg
    simpa [nearest_eq_self hd] using (two_zpow_pos (k - 54)).le

end TierBudget.Binary64
