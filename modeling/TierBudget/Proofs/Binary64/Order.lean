import TierBudget.Proofs.Binary64.Arithmetic
/-!
# Comparisons of doubles

On finite doubles the comparisons are those of their values (`HasValue.lt_iff`, `HasValue.le_iff`,
`HasValue.beq_iff`): the model compares exponents first and mantissas then, which is the order of
the values because the forms are canonical. The infinities lie at the two ends and NaN nowhere
(`cases_of_le`).
-/

namespace TierBudget.Binary64

open Float.Model Float.Model.UnpackedFloat

/-! ## Canonical forms -/

/-- The larger exponent has the larger value, whatever the mantissas. -/
theorem IsCanonical.value_lt {m m' : ℕ} {e e' : ℤ} (h : IsCanonical m e) (h' : IsCanonical m' e')
    (hlt : e < e') : (m : ℚ) * 2 ^ e < m' * 2 ^ e' := by
  have hfull : (2 : ℚ) ^ (52 : ℤ) ≤ m' := by
    exact_mod_cast h'.full.resolve_right (by have := h.le; omega)
  have hm : (m : ℚ) < 2 ^ (53 : ℤ) := by exact_mod_cast h.lt
  calc (m : ℚ) * 2 ^ e < 2 ^ (53 : ℤ) * 2 ^ e := mul_lt_mul_of_pos_right hm (two_zpow_pos e)
    _ = 2 ^ (52 : ℤ) * 2 ^ (e + 1) := by
      rw [← zpow_add₀ (by norm_num), ← zpow_add₀ (by norm_num)]
      congr 1
      ring
    _ ≤ m' * 2 ^ e' := mul_le_mul hfull (two_zpow_le (by omega)) (two_zpow_pos _).le
      (Nat.cast_nonneg m')

theorem IsCanonical.compare_eq {m m' : ℕ} {e e' : ℤ} (h : IsCanonical m e)
    (h' : IsCanonical m' e') :
    (compare e e').then (compare m m') = compare ((m : ℚ) * 2 ^ e) (m' * 2 ^ e') := by
  rcases lt_trichotomy e e' with hlt | rfl | hlt
  · rw [compare_lt_iff_lt.2 hlt, compare_lt_iff_lt.2 (h.value_lt h' hlt)]
    rfl
  · rw [compare_eq_iff_eq.2 rfl, Ordering.eq_then]
    have hpos := two_zpow_pos e
    rcases lt_trichotomy m m' with hm | rfl | hm
    · rw [compare_lt_iff_lt.2 hm, compare_lt_iff_lt.2]
      exact mul_lt_mul_of_pos_right (by exact_mod_cast hm) hpos
    · rw [compare_eq_iff_eq.2 rfl, compare_eq_iff_eq.2 rfl]
    · rw [compare_gt_iff_gt.2 hm, compare_gt_iff_gt.2]
      exact mul_lt_mul_of_pos_right (by exact_mod_cast hm) hpos
  · rw [compare_gt_iff_gt.2 hlt, compare_gt_iff_gt.2 (h'.value_lt h hlt)]
    rfl

theorem swap_compare_neg (p q : ℚ) : (compare p q).swap = compare (-p) (-q) := by
  rcases lt_trichotomy p q with h | rfl | h
  · rw [compare_lt_iff_lt.2 h, compare_gt_iff_gt.2 (neg_lt_neg h)]
    rfl
  · rw [compare_eq_iff_eq.2 rfl, compare_eq_iff_eq.2 rfl]
    rfl
  · rw [compare_gt_iff_gt.2 h, compare_lt_iff_lt.2 (neg_lt_neg h)]
    rfl

/-! ## Doubles -/

/-- The model compares values. -/
theorem Denotes.compare_eq {u v : UnpackedFloat} {p q : ℚ} (hu : Denotes u p) (hv : Denotes v q)
    (fu : Fits u) (fv : Fits v) : UnpackedFloat.compare u v = some (compare p q) := by
  have pos : ∀ {m : ℕ} (e : ℤ), 0 < m → 0 < (m : ℚ) * 2 ^ e :=
    fun e hm => mul_pos (by exact_mod_cast hm) (two_zpow_pos e)
  cases hu with
  | zero s =>
    cases hv with
    | zero s' => rw [compare_eq_iff_eq.2 rfl, UnpackedFloat.compare]
    | finite s' m' e' hm' =>
      have := pos e' hm'
      cases s' with
      | positive => rw [compare_lt_iff_lt.2 (by simpa [sgn] using this), UnpackedFloat.compare]
      | negative => rw [compare_gt_iff_gt.2 (by simpa [sgn] using this), UnpackedFloat.compare]
  | finite s m e hm =>
    have hpos := pos e hm
    cases hv with
    | zero s' =>
      cases s with
      | positive => rw [compare_gt_iff_gt.2 (by simpa [sgn] using hpos), UnpackedFloat.compare]
      | negative => rw [compare_lt_iff_lt.2 (by simpa [sgn] using hpos), UnpackedFloat.compare]
    | finite s' m' e' hm' =>
      have hpos' := pos e' hm'
      cases s with
      | positive =>
        cases s' with
        | positive => rw [UnpackedFloat.compare, fu.1.compare_eq fv.1, sgn, one_mul, one_mul]
        | negative =>
          rw [compare_gt_iff_gt.2 (by simp only [sgn]; linarith), UnpackedFloat.compare]
      | negative =>
        cases s' with
        | positive =>
          rw [compare_lt_iff_lt.2 (by simp only [sgn]; linarith), UnpackedFloat.compare]
        | negative =>
          rw [UnpackedFloat.compare, fu.1.compare_eq fv.1, swap_compare_neg, sgn, neg_one_mul,
            neg_one_mul]

theorem Denotes.isNaN_eq_false {u : UnpackedFloat} {q : ℚ} (h : Denotes u q) :
    u.isNaN = false := by
  cases h <;> rfl

theorem lt_iff_unpack (x y : Float) :
    x < y ↔ UnpackedFloat.lt x.toModel.unpack y.toModel.unpack = true := decide_eq_true_iff

theorem le_iff_unpack (x y : Float) :
    x ≤ y ↔ UnpackedFloat.le x.toModel.unpack y.toModel.unpack = true := decide_eq_true_iff

namespace HasValue

variable {x y : Float} {p q : ℚ}

theorem compare_eq (hx : HasValue x p) (hy : HasValue y q) :
    UnpackedFloat.compare x.toModel.unpack y.toModel.unpack = some (compare p q) :=
  Denotes.compare_eq hx hy (fits_unpack _) (fits_unpack _)

theorem lt_iff (hx : HasValue x p) (hy : HasValue y q) : x < y ↔ p < q := by
  rw [lt_iff_unpack, UnpackedFloat.lt, hx.compare_eq hy, ← compare_lt_iff_lt]
  cases compare p q <;> decide

theorem le_iff (hx : HasValue x p) (hy : HasValue y q) : x ≤ y ↔ p ≤ q := by
  rw [le_iff_unpack, UnpackedFloat.le, hx.compare_eq hy, ← compare_le_iff_le]
  cases compare p q <;> decide

theorem beq_iff (hx : HasValue x p) (hy : HasValue y q) : (x == y) = true ↔ p = q := by
  change UnpackedFloat.beq x.toModel.unpack y.toModel.unpack = true ↔ _
  rw [UnpackedFloat.beq, hx.compare_eq hy, ← compare_eq_iff_eq (a := p)]
  cases compare p q <;> decide

theorem isNaN_eq_false (hx : HasValue x q) : x.isNaN = false := Denotes.isNaN_eq_false hx

end HasValue

/-! ## Any double -/

theorem denotes_cases (u : UnpackedFloat) :
    u = .notANumber ∨ (∃ s, u = .infinity s) ∨ ∃ q, Denotes u q := by
  cases u with
  | notANumber => exact .inl rfl
  | infinity s => exact .inr (.inl ⟨s, rfl⟩)
  | zero s => exact .inr (.inr ⟨_, .zero s⟩)
  | finite s m e hm => exact .inr (.inr ⟨_, .finite s m e hm⟩)

/-- A double is NaN, an infinity, or has a value. -/
theorem value_cases (x : Float) :
    x.toModel.unpack = .notANumber ∨ (∃ s, x.toModel.unpack = .infinity s) ∨ ∃ q, HasValue x q :=
  denotes_cases _

theorem isNaN_eq_false_of_infinity {x : Float} {s : Sign} (h : x.toModel.unpack = .infinity s) :
    x.isNaN = false := by
  change x.toModel.unpack.isNaN = false
  rw [h]
  rfl

theorem denotes_of_le {u v : UnpackedFloat} (h : UnpackedFloat.le u v = true) :
    u = .infinity .negative ∨ v = .infinity .positive ∨ ∃ p q, Denotes u p ∧ Denotes v q := by
  have hfalse : ¬ false = true := Bool.false_ne_true
  rcases denotes_cases u with rfl | ⟨s, rfl⟩ | ⟨p, hp⟩
  · exact absurd h hfalse
  · cases s with
    | negative => exact .inl rfl
    | positive =>
      -- only itself is as large as the positive infinity
      cases v with
      | infinity t =>
        cases t with
        | negative => exact absurd h hfalse
        | positive => exact .inr (.inl rfl)
      | _ => exact absurd h hfalse
  · rcases denotes_cases v with rfl | ⟨t, rfl⟩ | ⟨q, hq⟩
    · cases hp <;> exact absurd h hfalse
    · cases t with
      | negative => cases hp <;> exact absurd h hfalse
      | positive => exact .inr (.inl rfl)
    · exact .inr (.inr ⟨p, q, hp, hq⟩)

/-- **What a comparison says of any two doubles**: the lower one is the negative infinity, the upper
one the positive infinity, or both have values in that order. NaN is neither. -/
theorem cases_of_le {x y : Float} (h : x ≤ y) :
    x.toModel.unpack = .infinity .negative ∨ y.toModel.unpack = .infinity .positive ∨
      ∃ p q, HasValue x p ∧ HasValue y q ∧ p ≤ q := by
  rcases denotes_of_le ((le_iff_unpack x y).1 h) with hx | hy | ⟨p, q, hp, hq⟩
  · exact .inl hx
  · exact .inr (.inl hy)
  · exact .inr (.inr ⟨p, q, hp, hq, (HasValue.le_iff hp hq).1 h⟩)

end TierBudget.Binary64
