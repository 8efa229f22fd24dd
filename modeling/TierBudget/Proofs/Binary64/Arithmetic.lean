import TierBudget.Proofs.Binary64.Packing
/-!
# Arithmetic of doubles

`HasValue x q` says that the double `x` is finite and stands for the rational `q`. Each operation on
doubles is the operation on rationals followed by `nearest`, as long as the result is in range:
`HasValue.add`, `HasValue.sub`, `HasValue.mul`, `HasValue.div`. A value other than zero determines
its double (`HasValue.eq_of_ne_zero`); zero has two, which differ in their sign.
-/

namespace TierBudget.Binary64

open Float.Model Float.Model.UnpackedFloat

/-! ## Values -/

/-- The number that an unpacked double stands for. -/
inductive Denotes : UnpackedFloat → ℚ → Prop where
  | zero (s : Sign) : Denotes (.zero s) 0
  | finite (s : Sign) (m : ℕ) (e : ℤ) (hm : 0 < m) :
    Denotes (.finite s m e hm) (sgn s * (m * 2 ^ e))

/-- The double is finite and stands for `q`. -/
def HasValue (x : Float) (q : ℚ) : Prop := Denotes x.toModel.unpack q

/-- The number that a double stands for, and `0` for NaN and the infinities. -/
def value (x : Float) : ℚ :=
  match x.toModel.unpack with
  | .finite s m e _ => sgn s * (m * 2 ^ e)
  | _ => 0

theorem sgn_ne_zero (s : Sign) : sgn s ≠ 0 := by cases s <;> simp [sgn]

theorem sgn_mul (s t : Sign) : sgn (s * t) = sgn s * sgn t := by
  cases s <;> cases t <;> [change (1 : ℚ) = -1 * -1; change (-1 : ℚ) = -1 * 1;
    change (-1 : ℚ) = 1 * -1; change (1 : ℚ) = 1 * 1] <;> norm_num

theorem sgn_div (s t : Sign) : sgn (s / t) = sgn s * sgn t := by
  cases s <;> cases t <;> [change (1 : ℚ) = -1 * -1; change (-1 : ℚ) = -1 * 1;
    change (-1 : ℚ) = 1 * -1; change (1 : ℚ) = 1 * 1] <;> norm_num

theorem sgn_neg (s : Sign) : sgn (-s) = -sgn s := by cases s <;> decide

theorem sgn_inv (s : Sign) : (sgn s)⁻¹ = sgn s := by cases s <;> norm_num [sgn]

theorem apply_eq (s : Sign) (n : ℤ) : ((s.apply n : ℤ) : ℚ) = sgn s * n := by
  cases s <;> simp [Sign.apply, sgn]

theorem sgn_mul_pos {s : Sign} {a : ℚ} (ha : 0 < a) : 0 < sgn s * a ↔ s = .positive := by
  cases s <;> simp [sgn, ha, ha.le]

theorem IsDouble.sgn_mul {q : ℚ} (h : IsDouble q) (s : Sign) : IsDouble (sgn s * q) := by
  cases s
  · simpa [sgn] using h.neg
  · simpa [sgn] using h

namespace Denotes

variable {u v : UnpackedFloat} {p q : ℚ}

theorem unique (hp : Denotes u p) (hq : Denotes u q) : p = q := by
  cases hp <;> cases hq <;> rfl

theorem isDouble (h : Denotes u q) (hu : Fits u) : IsDouble q := by
  cases h with
  | zero s => exact ⟨0, 0, by norm_num, by norm_num, by simp⟩
  | finite s m e hm => exact hu.1.isDouble.sgn_mul s

/-- A double is what it rounds to. -/
theorem rounds (h : Denotes u q) (hu : Fits u) : Rounds q u := by
  have hq := nearest_eq_self (h.isDouble hu)
  cases h with
  | zero s => exact hq
  | finite s m e hm => exact ⟨hu.1, hq.symm⟩

/-- Canonical forms of one value other than zero are equal. -/
theorem eq_of_ne_zero (hu : Denotes u q) (hv : Denotes v q) (fu : Fits u) (fv : Fits v)
    (hq : q ≠ 0) : u = v := by
  cases hu with
  | zero s => exact absurd rfl hq
  | finite s m e hm =>
    generalize hr : sgn s * ((m : ℚ) * 2 ^ e) = r at hv
    cases hv with
    | zero s' => exact absurd hr hq
    | finite s' m' e' hm' =>
      have hpos : 0 < (m : ℚ) * 2 ^ e := mul_pos (by exact_mod_cast hm) (two_zpow_pos e)
      have hpos' : 0 < (m' : ℚ) * 2 ^ e' := mul_pos (by exact_mod_cast hm') (two_zpow_pos e')
      obtain rfl : s = s' := by
        have h := sgn_mul_pos (s := s) hpos
        rw [hr, sgn_mul_pos hpos'] at h
        cases s <;> cases s' <;> simp at h ⊢
      obtain ⟨rfl, rfl⟩ :=
        fu.1.eq_of_value_eq fv.1 hm hm' (mul_left_cancel₀ (sgn_ne_zero s) hr)
      rfl

end Denotes

theorem HasValue.unique {x : Float} {p q : ℚ} (hp : HasValue x p) (hq : HasValue x q) : p = q :=
  Denotes.unique hp hq

theorem HasValue.value_eq {x : Float} {q : ℚ} (h : HasValue x q) : value x = q := by
  unfold HasValue at h
  unfold value
  generalize x.toModel.unpack = u at h
  cases h <;> rfl

theorem HasValue.isDouble {x : Float} {q : ℚ} (h : HasValue x q) : IsDouble q :=
  Denotes.isDouble h (fits_unpack _)

theorem ofModel_pack_unpack (x : Float) : Float.ofModel (.pack x.toModel.unpack) = x := by
  rw [pack_unpack]

/-- **A value other than zero determines its double.** -/
theorem HasValue.eq_of_ne_zero {x y : Float} {q : ℚ} (hx : HasValue x q) (hy : HasValue y q)
    (hq : q ≠ 0) : x = y := by
  rw [← ofModel_pack_unpack x, ← ofModel_pack_unpack y,
    Denotes.eq_of_ne_zero hx hy (fits_unpack _) (fits_unpack _) hq]

/-! ## Packing a rounded result -/

/-- The canonical forms in range are those below `2 ^ 1024`. -/
theorem IsCanonical.exponent_le_iff {m : ℕ} {e : ℤ} (h : IsCanonical m e) :
    e ≤ 971 ↔ (m : ℚ) * 2 ^ e < 2 ^ (1024 : ℤ) := by
  constructor
  · intro hle
    have hlt : (m : ℚ) < 2 ^ (53 : ℤ) := by exact_mod_cast h.lt
    calc (m : ℚ) * 2 ^ e < 2 ^ (53 : ℤ) * 2 ^ e := mul_lt_mul_of_pos_right hlt (two_zpow_pos e)
      _ = 2 ^ (53 + e) := (zpow_add₀ (by norm_num) ..).symm
      _ ≤ 2 ^ (1024 : ℤ) := two_zpow_le (by omega)
  · intro hlt
    by_contra hgt
    have hfull : (2 : ℚ) ^ (52 : ℤ) ≤ m := by exact_mod_cast h.full.resolve_right (by omega)
    refine absurd hlt (not_lt.2 ?_)
    calc (2 : ℚ) ^ (1024 : ℤ) ≤ 2 ^ (52 + e) := two_zpow_le (by omega)
      _ = 2 ^ (52 : ℤ) * 2 ^ e := zpow_add₀ (by norm_num) ..
      _ ≤ m * 2 ^ e := mul_le_mul_of_nonneg_right hfull (two_zpow_pos e).le

theorem abs_sgn_mul (s : Sign) {q : ℚ} (hq : 0 ≤ q) : |sgn s * q| = q := by
  cases s <;> simp [sgn, abs_of_nonneg hq]

/-- A result in range is packed as it is. -/
theorem Rounds.hasValue_of_lt {q : ℚ} {u : UnpackedFloat} (h : Rounds q u)
    (hq : |nearest q| < 2 ^ (1024 : ℤ)) : HasValue (.ofModel (.pack u)) (nearest q) := by
  cases u with
  | infinity s => exact h.elim
  | notANumber => exact h.elim
  | zero s =>
    change Denotes (Float.Model.pack _).unpack _
    rw [unpack_pack (u := .zero s) trivial, show nearest q = 0 from h]
    exact .zero s
  | finite s m e hm =>
    have hpos : 0 ≤ (m : ℚ) * 2 ^ e := mul_nonneg (Nat.cast_nonneg m) (two_zpow_pos e).le
    have hfits : Fits (.finite s m e hm) :=
      ⟨h.1, h.1.exponent_le_iff.2 (by rwa [← abs_sgn_mul s hpos, h.2])⟩
    change Denotes (Float.Model.pack _).unpack _
    rw [unpack_pack hfits, ← h.2]
    exact .finite s m e hm

theorem Rounds.hasValue {q : ℚ} {u : UnpackedFloat} (h : Rounds q u)
    (hq : |q| ≤ 2 ^ (1023 : ℤ)) : HasValue (.ofModel (.pack u)) (nearest q) := by
  have hle : |nearest q| ≤ 2 ^ (1023 : ℤ) := abs_nearest_le (isDouble_two_zpow (by norm_num)) hq
  exact h.hasValue_of_lt (hle.trans_lt (zpow_lt_zpow_right₀ (by norm_num) (by norm_num)))

/-- A result out of range is packed as infinity. -/
theorem Rounds.unpack_pack_of_le {q : ℚ} {u : UnpackedFloat} (h : Rounds q u)
    (hq : 2 ^ (1024 : ℤ) ≤ |nearest q|) : ∃ s, (Float.Model.pack u).unpack = .infinity s := by
  cases u with
  | infinity s => exact h.elim
  | notANumber => exact h.elim
  | zero s =>
    rw [show nearest q = 0 from h, abs_zero] at hq
    exact absurd hq (not_le.2 (two_zpow_pos _))
  | finite s m e hm =>
    have hpos : 0 ≤ (m : ℚ) * 2 ^ e := mul_nonneg (Nat.cast_nonneg m) (two_zpow_pos e).le
    have hlarge : ¬ e ≤ 971 := fun he =>
      absurd (h.1.exponent_le_iff.1 he) (not_lt.2 (by rwa [← abs_sgn_mul s hpos, h.2]))
    have hbits : UnpackedFloat.pack Format.binary64 (.finite s m e hm) =
        UnpackedFloat.pack Format.binary64 (.infinity s) :=
      if_pos (by change 2048 ≤ (e + 1023 + 52).toNat + 1; omega)
    have hpack : Float.Model.pack (.finite s m e hm) = Float.Model.pack (.infinity s) := by
      simp only [Float.Model.pack, hbits]
    exact ⟨s, by rw [hpack, unpack_pack (u := .infinity s) trivial]⟩

/-! ## Rounding an exact result -/

theorem log2_mul_two_pow {m : ℕ} (hm : 0 < m) (k : ℕ) : (m * 2 ^ k).log2 = m.log2 + k := by
  rw [Nat.log2_eq_iff (by positivity)]
  have h₁ := Nat.mul_le_mul_right (2 ^ k) (Nat.log2_self_le hm.ne')
  have h₂ := Nat.mul_lt_mul_of_pos_right (@Nat.lt_log2_self m) (Nat.two_pow_pos k)
  rw [← pow_add] at h₁ h₂
  exact ⟨h₁, by rwa [show m.log2 + k + 1 = m.log2 + 1 + k by omega]⟩

/-- Lowering the exponent keeps the value. -/
theorem decreaseExponent_eq (m : ℕ) (e t : ℤ) :
    decreaseExponent m e t = (m * 2 ^ (e - t).toNat, e - (e - t).toNat) := by
  rw [decreaseExponent, Nat.shiftLeft_eq]

theorem rounds_round (s : Sign) {m : ℕ} (e : ℤ) (hm : 0 < m) :
    Rounds (sgn s * (m * 2 ^ e)) (UnpackedFloat.round Format.binary64 s m e) := by
  rw [UnpackedFloat.round, decreaseExponent_eq]
  set k := (e - Format.binary64.targetExponent (totalExponent m e)).toNat with hk
  have hvalue : (m : ℚ) * 2 ^ e = ((m * 2 ^ k : ℕ) : ℚ) * 2 ^ (e - k) := by
    push_cast
    rw [mul_assoc, ← zpow_natCast, ← zpow_add₀ (by norm_num)]
    congr 2
    ring
  rw [hvalue]
  refine rounds_roundWithAccuracy s (marks_exact _) (.inl (by positivity)) ?_
  -- the shift leaves the leading place, and with it the target exponent, where it was
  have htotal : totalExponent (m * 2 ^ k) (e - k) = totalExponent m e := by
    rw [totalExponent, totalExponent, log2_mul_two_pow hm]
    push_cast
    ring
  rw [htotal]
  omega

theorem rounds_normalize (m e : ℤ) (z : Sign) :
    Rounds (m * 2 ^ e) (UnpackedFloat.normalize .binary64 m e z) := by
  unfold UnpackedFloat.normalize
  rcases hc : compare m 0 with _ | _ | _
  · have hlt : m < 0 := Int.compare_eq_lt.1 hc
    have := rounds_round .negative e (show 0 < (-m).toNat by omega)
    have hcast : (((-m).toNat : ℕ) : ℚ) = -m := by
      exact_mod_cast Int.toNat_of_nonneg (show 0 ≤ -m by omega)
    rw [hcast] at this
    simpa [sgn] using this
  · obtain rfl : m = 0 := Int.compare_eq_eq.1 hc
    change nearest _ = 0
    simp
  · have hlt : 0 < m := Int.compare_eq_gt.1 hc
    have := rounds_round .positive e (show 0 < m.toNat by omega)
    have hcast : ((m.toNat : ℕ) : ℚ) = m := by
      exact_mod_cast Int.toNat_of_nonneg (show 0 ≤ m by omega)
    rw [hcast] at this
    simpa [sgn] using this

/-- A mantissa brought to a lower exponent. -/
theorem mantissa_mul_two_zpow (m : ℕ) {e t : ℤ} (h : t ≤ e) :
    ((m * 2 ^ (e - t).toNat : ℕ) : ℚ) * 2 ^ t = m * 2 ^ e := by
  obtain ⟨k, rfl⟩ := Int.le.dest h
  rw [show (t + k - t).toNat = k by omega]
  push_cast
  rw [add_comm t, zpow_add₀ (by norm_num), zpow_natCast, mul_assoc]

/-! ## The operations on unpacked doubles -/

namespace Denotes

variable {u v : UnpackedFloat} {p q : ℚ}

theorem add (hu : Denotes u p) (hv : Denotes v q) (fu : Fits u) (fv : Fits v) :
    Rounds (p + q) (UnpackedFloat.add Format.binary64 u v) := by
  cases hu with
  | zero s =>
    rw [zero_add]
    cases hv with
    | zero s' =>
      rw [UnpackedFloat.add]
      split <;> exact nearest_zero
    | finite s' m' e' hm' => exact rounds (.finite s' m' e' hm') fv
  | finite s m e hm =>
    cases hv with
    | zero s' =>
      rw [add_zero]
      exact rounds (.finite s m e hm) fu
    | finite s' m' e' hm' =>
      simp only [UnpackedFloat.add, decreaseExponent_eq]
      have h := rounds_normalize (s.apply ↑(m * 2 ^ (e - min e e').toNat) +
        s'.apply ↑(m' * 2 ^ (e' - min e e').toNat)) (min e e') .positive
      rw [Int.cast_add, apply_eq, apply_eq, add_mul, mul_assoc, mul_assoc, Int.cast_natCast,
        Int.cast_natCast, mantissa_mul_two_zpow m (min_le_left e e'),
        mantissa_mul_two_zpow m' (min_le_right e e')] at h
      exact h

theorem sub (hu : Denotes u p) (hv : Denotes v q) (fu : Fits u) (fv : Fits v) :
    Rounds (p - q) (UnpackedFloat.sub Format.binary64 u v) := by
  cases hu with
  | zero s =>
    rw [zero_sub]
    cases hv with
    | zero s' =>
      rw [UnpackedFloat.sub, neg_zero]
      split <;> exact nearest_zero
    | finite s' m' e' hm' =>
      have h := rounds (.finite (-s') m' e' hm') fv
      rwa [sgn_neg, neg_mul] at h
  | finite s m e hm =>
    cases hv with
    | zero s' =>
      rw [sub_zero]
      exact rounds (.finite s m e hm) fu
    | finite s' m' e' hm' =>
      simp only [UnpackedFloat.sub, decreaseExponent_eq]
      have h := rounds_normalize (s.apply ↑(m * 2 ^ (e - min e e').toNat) -
        s'.apply ↑(m' * 2 ^ (e' - min e e').toNat)) (min e e') .positive
      rw [Int.cast_sub, apply_eq, apply_eq, sub_mul, mul_assoc, mul_assoc, Int.cast_natCast,
        Int.cast_natCast, mantissa_mul_two_zpow m (min_le_left e e'),
        mantissa_mul_two_zpow m' (min_le_right e e')] at h
      exact h

/-- The exact product has enough digits to be rounded. -/
theorem mul_exponent_le {m m' : ℕ} {e e' : ℤ} (h : IsCanonical m e) (h' : IsCanonical m' e')
    (hm : 0 < m) (hm' : 0 < m') :
    e + e' ≤ Format.binary64.targetExponent (totalExponent (m * m') (e + e')) := by
  rw [targetExponent_eq, totalExponent]
  by_cases hlow : e + e' ≤ -1074
  · exact hlow.trans (le_max_right _ _)
  -- one of the two mantissas is full, or the exponent would be low
  have hfull : 2 ^ 52 ≤ m * m' := by
    rcases h.full with hf | rfl
    · exact hf.trans (Nat.le_mul_of_pos_right m hm')
    · have hf := h'.full.resolve_right (by omega)
      exact hf.trans (Nat.le_mul_of_pos_left m' hm)
  have hlog : 52 ≤ (m * m').log2 := (Nat.le_log2 (by positivity)).2 hfull
  omega

theorem mul (hu : Denotes u p) (hv : Denotes v q) (fu : Fits u) (fv : Fits v) :
    Rounds (p * q) (UnpackedFloat.mul Format.binary64 u v) := by
  cases hu with
  | zero s =>
    rw [zero_mul]
    cases hv <;> exact nearest_zero
  | finite s m e hm =>
    cases hv with
    | zero s' =>
      rw [mul_zero]
      exact nearest_zero
    | finite s' m' e' hm' =>
      have h := rounds_roundWithAccuracy (s * s') (marks_exact (m * m'))
        (.inl (Nat.mul_ne_zero hm.ne' hm'.ne')) (mul_exponent_le fu.1 fv.1 hm hm')
      rw [sgn_mul, zpow_add₀ (by norm_num), Nat.cast_mul] at h
      have hvalue : sgn s * ((m : ℚ) * 2 ^ e) * (sgn s' * (m' * 2 ^ e')) =
          sgn s * sgn s' * (m * m' * (2 ^ e * 2 ^ e')) := by ring
      rw [hvalue]
      exact h

/-- The quotient of the mantissas has all its digits, unless it ends below the lowest place. -/
theorem le_quotient {m m' k : ℕ} {e e' t : ℤ} (hm : 0 < m) (hm' : 0 < m')
    (hk : (k : ℤ) = e - e' - t) (ht : t ≤ (m.log2 + 1 + e) - (m'.log2 + 1 + e') - 53) :
    2 ^ 52 ≤ m * 2 ^ k / m' := by
  rw [Nat.le_div_iff_mul_le hm']
  calc 2 ^ 52 * m' ≤ 2 ^ 52 * 2 ^ (m'.log2 + 1) :=
        Nat.mul_le_mul_left _ (@Nat.lt_log2_self m').le
    _ = 2 ^ (52 + (m'.log2 + 1)) := (pow_add _ _ _).symm
    _ ≤ 2 ^ (m.log2 + k) := Nat.pow_le_pow_right (by norm_num) (by omega)
    _ = 2 ^ m.log2 * 2 ^ k := pow_add _ _ _
    _ ≤ m * 2 ^ k := Nat.mul_le_mul_right _ (Nat.log2_self_le hm.ne')

/-- The number that the quotient and its remainder stand for. -/
theorem quotient_value {m m' k : ℕ} {e e' t : ℤ} (hm' : 0 < m') (hk : (k : ℤ) = e - e' - t) :
    (((m * 2 ^ k / m' : ℕ) : ℚ) + ((m * 2 ^ k % m' : ℕ) : ℚ) / m') * 2 ^ t =
      m * 2 ^ e / (m' * 2 ^ e') := by
  have hm0 : (m' : ℚ) ≠ 0 := by exact_mod_cast hm'.ne'
  have hsplit : ((m * 2 ^ k / m' : ℕ) : ℚ) + ((m * 2 ^ k % m' : ℕ) : ℚ) / m' =
      m * 2 ^ k / m' := by
    have h : ((m' * (m * 2 ^ k / m') + m * 2 ^ k % m' : ℕ) : ℚ) = ((m * 2 ^ k : ℕ) : ℚ) := by
      rw [Nat.div_add_mod]
    push_cast at h
    field_simp
    linarith
  have hpow : (2 : ℚ) ^ e = 2 ^ k * 2 ^ t * 2 ^ e' := by
    rw [← zpow_natCast, ← zpow_add₀ (by norm_num), ← zpow_add₀ (by norm_num), hk]
    congr 1
    ring
  have := (two_zpow_pos e').ne'
  rw [hsplit, hpow]
  field_simp

theorem div (hu : Denotes u p) (hv : Denotes v q) (hq : q ≠ 0) :
    Rounds (p / q) (UnpackedFloat.div Format.binary64 u v) := by
  cases hv with
  | zero s' => exact absurd rfl hq
  | finite s' m' e' hm' =>
    cases hu with
    | zero s =>
      rw [zero_div]
      exact nearest_zero
    | finite s m e hm =>
      simp only [UnpackedFloat.div, divCore, Nat.shiftLeft_eq]
      set t := min (e - e') (Format.binary64.targetExponent (totalExponent m e - totalExponent m' e'))
        with ht
      rw [targetExponent_eq, totalExponent, totalExponent] at ht
      set k := (e - e' - t).toNat with hk
      have hkt : (k : ℤ) = e - e' - t := by omega
      have hlarge : t ≤ -1074 ∨ 2 ^ 52 ≤ m * 2 ^ k / m' := by
        by_cases hlow : t ≤ -1074
        · exact .inl hlow
        · exact .inr (le_quotient hm hm' hkt (by omega))
      have hround := rounds_roundWithAccuracy (s / s') (e := t)
        (marks_accuracyOfFraction (m * 2 ^ k / m') (m * 2 ^ k % m') m' (Nat.mod_lt _ hm'))
        (hlarge.symm.imp_left fun h => by omega) (by
          rw [targetExponent_eq, totalExponent]
          rcases hlarge with h | h
          · exact h.trans (le_max_right _ _)
          · have hlog : 52 ≤ (m * 2 ^ k / m').log2 := (Nat.le_log2 (by omega)).2 h
            omega)
      rw [quotient_value hm' hkt, sgn_div] at hround
      have hquot : sgn s * ((m : ℚ) * 2 ^ e) / (sgn s' * (m' * 2 ^ e')) =
          sgn s * sgn s' * (m * 2 ^ e / (m' * 2 ^ e')) := by
        rw [mul_div_mul_comm, div_eq_mul_inv (sgn s), sgn_inv]
      rw [hquot]
      exact hround

end Denotes

/-! ## The operations on doubles -/

namespace HasValue

variable {x y : Float} {p q : ℚ}

theorem add (hx : HasValue x p) (hy : HasValue y q) (h : |p + q| ≤ 2 ^ (1023 : ℤ)) :
    HasValue (x + y) (nearest (p + q)) :=
  (Denotes.add hx hy (fits_unpack _) (fits_unpack _)).hasValue h

theorem sub (hx : HasValue x p) (hy : HasValue y q) (h : |p - q| ≤ 2 ^ (1023 : ℤ)) :
    HasValue (x - y) (nearest (p - q)) :=
  (Denotes.sub hx hy (fits_unpack _) (fits_unpack _)).hasValue h

theorem mul (hx : HasValue x p) (hy : HasValue y q) (h : |p * q| ≤ 2 ^ (1023 : ℤ)) :
    HasValue (x * y) (nearest (p * q)) :=
  (Denotes.mul hx hy (fits_unpack _) (fits_unpack _)).hasValue h

theorem div (hx : HasValue x p) (hy : HasValue y q) (hq : q ≠ 0) (h : |p / q| ≤ 2 ^ (1023 : ℤ)) :
    HasValue (x / y) (nearest (p / q)) :=
  (Denotes.div hx hy hq).hasValue h

end HasValue

/-- Nothing that is computed with counts comes near the range. -/
theorem abs_le_of_le_two_pow {q : ℚ} (h : |q| ≤ 2 ^ 64) : |q| ≤ 2 ^ (1023 : ℤ) := by
  have h' : |q| ≤ 2 ^ (64 : ℤ) := by exact_mod_cast h
  exact h'.trans (two_zpow_le (by norm_num))

theorem abs_natCast_le {n : ℕ} (h : n ≤ 2 ^ 53) : |(n : ℚ)| ≤ 2 ^ (1023 : ℤ) := by
  refine abs_le_of_le_two_pow ?_
  rw [abs_of_nonneg (Nat.cast_nonneg n)]
  exact_mod_cast h.trans (Nat.pow_le_pow_right (by norm_num) (by norm_num))

/-! ## Numbers in the code -/

theorem hasValue_zero : HasValue 0 0 := Denotes.zero .positive

/-- A constant, read off its bits. -/
theorem hasValue_of_unpack {x : Float} {s : Sign} {m : ℕ} {e : ℤ} {hm : 0 < m}
    (h : x.toModel.unpack = .finite s m e hm) : HasValue x (sgn s * (m * 2 ^ e)) := by
  rw [HasValue, h]
  exact .finite s m e hm

theorem unpack_zero : (0 : Float).toModel.unpack = .zero .positive := rfl

theorem unpack_one : (1 : Float).toModel.unpack =
    .finite .positive 4503599627370496 (-52) (by norm_num) := rfl

theorem hasValue_one : HasValue 1 1 := by
  have h := hasValue_of_unpack unpack_one
  norm_num [sgn] at h
  exact h

/-- Whole numbers of 53 digits are exact. -/
theorem hasValue_ofModel_ofNat {n : ℕ} (h : n ≤ 2 ^ 53) :
    HasValue (.ofModel (.pack (UnpackedFloat.ofNat Format.binary64 n))) n := by
  have hr := rounds_normalize n 0 .positive
  rw [zpow_zero, mul_one, Int.cast_natCast] at hr
  have hv := hr.hasValue (abs_natCast_le h)
  rwa [nearest_eq_self (isDouble_natCast h)] at hv

theorem hasValue_toFloat (n : UInt32) : HasValue n.toFloat n.toNat :=
  hasValue_ofModel_ofNat (n.toNat_lt.le.trans (by norm_num))

theorem hasValue_toUInt64 {n : ℕ} (h : n < 2 ^ 53) : HasValue n.toUInt64.toFloat n := by
  have hw : n.toUInt64.toNat = n := Nat.mod_eq_of_lt (h.trans (by norm_num))
  have hv : HasValue n.toUInt64.toFloat n.toUInt64.toNat :=
    hasValue_ofModel_ofNat (by rw [hw]; exact h.le)
  rwa [hw] at hv

theorem hasValue_ofNat {n : ℕ} (h : n < 2 ^ 53) : HasValue (.ofNat n) n := by
  have hfast : Float.ofNat n = n.toUInt64.toFloat * 1 := by
    change Float.ofScientific n false 0 = _
    rw [Float.ofScientific, dif_pos ⟨h, by norm_num⟩]
    rfl
  have hmul := (hasValue_toUInt64 h).mul hasValue_one (by rw [mul_one]; exact abs_natCast_le h.le)
  rw [mul_one, nearest_eq_self (isDouble_natCast h.le)] at hmul
  rwa [hfast]

end TierBudget.Binary64
