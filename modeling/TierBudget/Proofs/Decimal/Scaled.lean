import TierBudget.Decimal.Scaled
import TierBudget.Proofs.Decimal.Written
/-!
# Reading by scaling

`Numeral.scaledFloat` rounds up to three times on its way, so what it makes of the numeral of a
double need not be that double. It never runs out of the range, though: the numeral of a finite
double is read as a finite one (`Numeral.isFinite_scaledFloat_written`). The leading digits times
their power of ten are at most the number that is read, and two relative errors of `2 ^ -53` lift no
number to the point of overflow but those that are written for the two largest doubles; these two
are computed.
-/

namespace TierBudget

open Binary64 Float.Model Float.Model.UnpackedFloat

/-! ## Leading digits -/

/-- Further digits move a number to the left. -/
theorem mul_le_ofDigitChars (n : ℕ) (ds : List Char) :
    10 ^ ds.length * n ≤ Nat.ofDigitChars 10 ds n := by
  rw [Nat.ofDigitChars_eq_ofDigitChars_zero]
  exact Nat.le_add_right _ _

theorem le_ofDigitChars (n : ℕ) (ds : List Char) : n ≤ Nat.ofDigitChars 10 ds n :=
  (Nat.le_mul_of_pos_left n (by positivity)).trans (mul_le_ofDigitChars n ds)

theorem gather_fst_lt {n : ℕ} (hn : n < UInt64.size) (ds : List Char) :
    (gather n ds).1 < UInt64.size := by
  induction ds generalizing n with
  | nil => exact hn
  | cons d r ih =>
    rw [gather]
    split_ifs with hm
    · exact ih hm
    · exact hn

theorem gather_snd_le (n : ℕ) (ds : List Char) : (gather n ds).2 ≤ ds.length := by
  induction ds generalizing n with
  | nil => exact le_rfl
  | cons d r ih =>
    rw [gather]
    split_ifs with hm
    · exact (ih _).trans (Nat.le_succ _)
    · exact le_rfl

/-- With zeros for the digits that are left over, the number is not above the one that is
written. -/
theorem gather_le (n : ℕ) (ds : List Char) :
    (gather n ds).1 * 10 ^ (gather n ds).2 ≤ Nat.ofDigitChars 10 ds n := by
  induction ds generalizing n with
  | nil => simp [gather, Nat.ofDigitChars]
  | cons d r ih =>
    rw [gather, Nat.ofDigitChars_cons]
    split_ifs with hm
    · exact ih _
    · calc n * 10 ^ (r.length + 1) = 10 ^ r.length * (10 * n) := by ring
        _ ≤ 10 ^ r.length * (10 * n + (d.toNat - '0'.toNat)) :=
          Nat.mul_le_mul_left _ (Nat.le_add_right _ _)
        _ ≤ _ := mul_le_ofDigitChars _ r

/-- Nothing is left over of a number that fits 64 bits. -/
theorem gather_of_lt {n : ℕ} {ds : List Char} (h : Nat.ofDigitChars 10 ds n < UInt64.size) :
    gather n ds = (Nat.ofDigitChars 10 ds n, 0) := by
  induction ds generalizing n with
  | nil => rfl
  | cons d r ih =>
    rw [Nat.ofDigitChars_cons] at h ⊢
    rw [gather, if_pos ((le_ofDigitChars _ r).trans_lt h)]
    exact ih h

namespace Numeral

theorem leading_fst_lt (n : Numeral) : n.leading.1 < UInt64.size :=
  gather_fst_lt (gather_fst_lt (by norm_num) _) _

/-- The digits that a numeral is gathered from after the whole part. -/
theorem ofDigits_append_eq (ds f : List Char) :
    ofDigits (ds ++ f) = Nat.ofDigitChars 10 f (ofDigits ds) := Nat.ofDigitChars_append ..

theorem leading_eq {n : Numeral} (h : ofDigits n.whole < UInt64.size) :
    n.leading = ((gather (ofDigits n.whole) (n.fraction.getD [])).1,
      n.toDecimal.exponent + (gather (ofDigits n.whole) (n.fraction.getD [])).2) := by
  have hdropped := gather_snd_le (ofDigits n.whole) (n.fraction.getD [])
  rw [leading, gather_of_lt h]
  refine Prod.ext rfl ?_
  change ((0 : ℕ) : ℤ) - ((n.fraction.getD []).length -
    (gather (ofDigits n.whole) (n.fraction.getD [])).2 : ℕ) + n.exponentValue =
      n.exponentValue - (n.fraction.getD []).length + _
  omega

/-- The leading digits come with a power of ten that leads to no more than the number. -/
theorem leading_le {n : Numeral} (h : ofDigits n.whole < UInt64.size) :
    (n.leading.1 : ℚ) * 10 ^ n.leading.2 ≤ n.toDecimal.value := by
  have hgather := gather_le (ofDigits n.whole) (n.fraction.getD [])
  rw [← ofDigits_append_eq] at hgather
  rw [leading_eq h]
  generalize gather (ofDigits n.whole) (n.fraction.getD []) = g at hgather
  calc (g.1 : ℚ) * 10 ^ (n.toDecimal.exponent + g.2)
      = ((g.1 * 10 ^ g.2 : ℕ) : ℚ) * 10 ^ n.toDecimal.exponent := by
        rw [zpow_add₀ (by norm_num), zpow_natCast]
        push_cast
        ring
    _ ≤ n.toDecimal.value := mul_le_mul_of_nonneg_right (Nat.cast_le.2 hgather) (by positivity)

/-- All digits lead, if they fit 64 bits. -/
theorem leading_of_lt {n : Numeral} (h : n.toDecimal.coefficient < UInt64.size) :
    n.leading = (n.toDecimal.coefficient, n.toDecimal.exponent) := by
  have hall : Nat.ofDigitChars 10 (n.fraction.getD []) (ofDigits n.whole) =
    n.toDecimal.coefficient := (ofDigits_append_eq _ _).symm
  have hwhole : ofDigits n.whole < UInt64.size := by
    refine lt_of_le_of_lt ?_ h
    rw [← hall]
    exact le_ofDigitChars _ _
  rw [leading_eq hwhole, gather_of_lt (hall ▸ h), hall, Nat.cast_zero, add_zero]

end Numeral

/-! ## Factors -/

namespace Binary64

theorem roundsTo_ofNat (n : ℕ) : RoundsTo n (.ofNat n) := by
  have h := (Decimal.mk n 0).roundsTo_toFloat
  rwa [Decimal.value, zpow_zero, mul_one] at h

theorem roundsTo_powerOfTen (n : ℕ) : RoundsTo (10 ^ n : ℕ) (powerOfTen n) := by
  have h : RoundsTo ((1 : ℕ) * 10 ^ (n : ℤ)) (Float.ofScientific 1 (decide ((n : ℤ) < 0)) n) :=
    (Decimal.mk 1 n).roundsTo_toFloat
  have hsign : decide ((n : ℤ) < 0) = false := by simp
  rw [hsign, Nat.cast_one, one_mul, zpow_natCast] at h
  rw [Nat.cast_pow]
  exact h

/-- Half of the last place of the largest doubles. -/
def halfPlace : ℚ := 2 ^ (970 : ℤ)

theorem halfPlace_pos : 0 < halfPlace := two_zpow_pos _

/-- The bound of the range. -/
theorem two_zpow_1024 : (2 : ℚ) ^ (1024 : ℤ) = 2 ^ 54 * halfPlace := by
  rw [halfPlace, show (1024 : ℤ) = (54 : ℕ) + 970 by norm_num, zpow_add₀ (by norm_num),
    zpow_natCast]

/-- The least number that rounds to infinity. -/
def overflow : ℚ := (2 ^ 54 - 1) * halfPlace

theorem overflow_lt : overflow < 2 ^ (1024 : ℤ) := by
  rw [overflow, two_zpow_1024]
  exact mul_lt_mul_of_pos_right (by norm_num) halfPlace_pos

theorem natCast_lt_overflow {n : ℕ} (h : n < (2 ^ 54 - 1) * 2 ^ 970) : (n : ℚ) < overflow := by
  have hcast : (n : ℚ) < ((2 ^ 54 - 1 : ℕ) : ℚ) * ((2 : ℕ) : ℚ) ^ 970 := by
    rw [← Nat.cast_pow, ← Nat.cast_mul]
    exact Nat.cast_lt.2 h
  refine hcast.trans_eq ?_
  rw [overflow, halfPlace, ← zpow_natCast]
  norm_num

theorem abs_nearest_sub_le_halfPlace {q : ℚ} (h : |q| ≤ 2 ^ (1024 : ℤ)) :
    |nearest q - q| ≤ halfPlace := by
  rw [halfPlace, show (970 : ℤ) = 1024 - 54 by norm_num]
  exact abs_nearest_sub_le_of_abs_le (by norm_num) h

theorem nearest_lt {q : ℚ} (h₀ : 0 ≤ q) (h : q < overflow) : |nearest q| < 2 ^ (1024 : ℤ) := by
  have hle : |q| ≤ 2 ^ (1024 : ℤ) := by
    rw [abs_of_nonneg h₀]
    exact (h.trans overflow_lt).le
  have herr := abs_le.1 (abs_nearest_sub_le_halfPlace hle)
  rw [overflow] at h
  rw [abs_of_nonneg (nearest_nonneg h₀), two_zpow_1024]
  linarith

/-- Rounding adds no more than one part in `2 ^ 53` to a whole number. -/
theorem nearest_natCast_le (n : ℕ) : nearest n ≤ n * (1 + 1 / 2 ^ 53) := by
  rcases Nat.eq_zero_or_pos n with rfl | hn
  · simp
  have hnormal : 2 ^ (-1022 : ℤ) ≤ |(n : ℚ)| := by
    rw [abs_of_nonneg (Nat.cast_nonneg n)]
    calc (2 : ℚ) ^ (-1022 : ℤ) ≤ 2 ^ (0 : ℤ) := two_zpow_le (by norm_num)
      _ ≤ n := by exact_mod_cast hn
  have herr := abs_le.1 (abs_nearest_sub_le_mul hnormal)
  rw [abs_of_nonneg (Nat.cast_nonneg n)] at herr
  linarith

theorem hasValue_nearest_ofNat {n : ℕ} (h : n < UInt64.size) : HasValue (.ofNat n) (nearest n) := by
  refine (roundsTo_ofNat n).hasValue (nearest_lt (Nat.cast_nonneg n) (natCast_lt_overflow ?_))
  exact h.trans (by decide +kernel)

theorem hasValue_powerOfTen {n : ℕ} (h : n ≤ 308) :
    HasValue (powerOfTen n) (nearest (10 ^ n : ℕ)) := by
  refine (roundsTo_powerOfTen n).hasValue
    (nearest_lt (Nat.cast_nonneg _) (natCast_lt_overflow ?_))
  exact (Nat.pow_le_pow_right (by norm_num) h).trans_lt (by decide +kernel)

theorem one_le_nearest_pow (n : ℕ) : 1 ≤ nearest (10 ^ n : ℕ) := by
  refine le_nearest (by simpa using isDouble_natCast (n := 1) (by norm_num)) ?_
  exact_mod_cast Nat.one_le_pow _ _ (by norm_num)

/-- Quotients by powers of ten stay small. -/
theorem HasValue.div_powerOfTen {x : Float} {p : ℚ} (hx : HasValue x p)
    (hp : |p| ≤ 2 ^ (64 : ℤ)) {n : ℕ} (hn : n ≤ 308) :
    ∃ r, HasValue (x / powerOfTen n) r ∧ |r| ≤ 2 ^ (64 : ℤ) := by
  have hone := one_le_nearest_pow n
  have hpos : 0 < nearest (10 ^ n : ℕ) := zero_lt_one.trans_le hone
  have hquot : |p / nearest (10 ^ n : ℕ)| ≤ 2 ^ (64 : ℤ) := by
    rw [abs_div, abs_of_pos hpos]
    exact (div_le_self (abs_nonneg p) hone).trans hp
  exact ⟨_, hx.div (hasValue_powerOfTen hn) hpos.ne' (hquot.trans (two_zpow_le (by norm_num))),
    abs_nearest_le (isDouble_two_zpow (by norm_num)) hquot⟩

/-! ## Scaling -/

/-- Only zero has room for the powers of ten that are out of range. -/
theorem eq_zero_of_mul_lt {n : ℕ} {e : ℤ} (he : 308 < e) (h : n * (10 : ℚ) ^ e < overflow) :
    n = 0 := by
  by_contra hn
  have hone : (1 : ℚ) ≤ n := by exact_mod_cast Nat.pos_of_ne_zero hn
  have hbig : (2 : ℚ) ^ (1024 : ℤ) ≤ n * 10 ^ e :=
    (two_zpow_le_ten_zpow (by omega)).trans
      (le_mul_of_one_le_left (zpow_pos (by norm_num) e).le hone)
  exact absurd (h.trans overflow_lt) (not_lt.2 hbig)

/-- Rounding both factors adds little to a product. -/
theorem nearest_mul_nearest_le (m n : ℕ) :
    nearest m * nearest n ≤ m * n * (1 + 1 / 2 ^ 53) ^ 2 := by
  calc nearest m * nearest n ≤ m * (1 + 1 / 2 ^ 53) * (n * (1 + 1 / 2 ^ 53)) :=
        mul_le_mul (nearest_natCast_le m) (nearest_natCast_le n)
          (nearest_nonneg (Nat.cast_nonneg n)) (by positivity)
    _ = m * n * (1 + 1 / 2 ^ 53) ^ 2 := by ring

/-- Scaling stays in the range if the number is so far below it that two roundings up make no
difference. -/
theorem exists_hasValue_scaleBy {n : ℕ} {e : ℤ} {v : ℚ} (hn : n < UInt64.size)
    (hle : n * 10 ^ e ≤ v) (hv : v * (1 + 1 / 2 ^ 53) ^ 2 < overflow) :
    ∃ q, HasValue (scaleBy (.ofNat n) e) q := by
  have hx := hasValue_nearest_ofNat hn
  have hsmall : |nearest n| ≤ 2 ^ (64 : ℤ) := by
    refine abs_nearest_le (isDouble_two_zpow (by norm_num)) ?_
    rw [abs_of_nonneg (Nat.cast_nonneg n)]
    exact_mod_cast hn.le
  have hlt : n * (10 : ℚ) ^ e * (1 + 1 / 2 ^ 53) ^ 2 < overflow :=
    (mul_le_mul_of_nonneg_right hle (by positivity)).trans_lt hv
  unfold scaleBy
  split_ifs with hhigh hzero hmul hdiv hdiv'
  · exact ⟨_, hx⟩
  · have hn₀ : n = 0 := eq_zero_of_mul_lt hhigh
      ((le_mul_of_one_le_right (by positivity) (by norm_num)).trans_lt hlt)
    exact absurd ((hx.beq_iff hasValue_zero).2 (by simp [hn₀])) hzero
  · obtain ⟨k, rfl⟩ := Int.eq_ofNat_of_zero_le hmul
    have hround := hx.roundsTo_mul (hasValue_powerOfTen (n := k) (by omega))
    have hprod : nearest n * nearest (10 ^ k : ℕ) < overflow := by
      refine (nearest_mul_nearest_le n (10 ^ k)).trans_lt ?_
      rwa [Nat.cast_pow, ← zpow_natCast]
    exact ⟨_, hround.hasValue (nearest_lt (mul_nonneg (nearest_nonneg (Nat.cast_nonneg _))
      (nearest_nonneg (Nat.cast_nonneg _))) hprod)⟩
  · obtain ⟨r, hr, -⟩ := hx.div_powerOfTen hsmall (n := e.natAbs) (by omega)
    exact ⟨r, hr⟩
  · obtain ⟨r, hr, hle⟩ := hx.div_powerOfTen hsmall (n := 308) le_rfl
    obtain ⟨r', hr', -⟩ := hr.div_powerOfTen hle (n := e.natAbs - 308) (by omega)
    exact ⟨r', hr'⟩
  · exact ⟨0, hasValue_zero⟩

/-- All doubles but the two largest are at least two places below the largest. -/
theorem HasValue.abs_le_or {x : Float} {q : ℚ} (h : HasValue x q) :
    |q| ≤ (2 ^ 54 - 6) * halfPlace ∨
      ∃ s m, ∃ hm : 0 < m, (m = 2 ^ 53 - 1 ∨ m = 2 ^ 53 - 2) ∧
        x = .ofModel (.pack (.finite s m 971 hm)) := by
  have hfits := fits_unpack x.toModel
  have hx := ofModel_pack_unpack x
  unfold HasValue at h
  generalize x.toModel.unpack = u at h hfits hx
  cases h with
  | zero s =>
    left
    rw [abs_zero]
    exact mul_nonneg (by norm_num) halfPlace_pos.le
  | finite s m e hm =>
    obtain ⟨hcanonical, hle⟩ := hfits
    rw [abs_sgn_mul s (mul_nonneg (Nat.cast_nonneg m) (two_zpow_pos e).le)]
    have hlt := hcanonical.lt
    rcases hle.lt_or_eq with he | rfl
    · left
      have hm' : (m : ℚ) ≤ 2 ^ 53 := by exact_mod_cast hlt.le
      exact mul_le_mul (hm'.trans (by norm_num)) (two_zpow_le (by omega)) (two_zpow_pos e).le
        (by norm_num)
    · by_cases htop : m ≤ 2 ^ 53 - 3
      · left
        have hm' : (m : ℚ) + 3 ≤ 2 ^ 53 := by
          have h : m + 3 ≤ 2 ^ 53 := by omega
          exact_mod_cast h
        rw [show (971 : ℤ) = 1 + 970 by norm_num, zpow_add₀ (by norm_num), zpow_one, ← mul_assoc]
        exact mul_le_mul_of_nonneg_right (by linarith) (two_zpow_pos _).le
      · exact .inr ⟨s, m, hm, by omega, hx.symm⟩

end Binary64

namespace Numeral

theorem isFinite_scaledFloat_top (s : Sign) {m : ℕ} (hm : 0 < m)
    (h : m = 2 ^ 53 - 1 ∨ m = 2 ^ 53 - 2) :
    (written (.ofModel (.pack (.finite s m 971 hm)))).scaledFloat.isFinite = true := by
  rcases h with rfl | rfl <;> cases s <;> revert hm <;> decide +kernel

theorem ofDigits_whole_written_lt (x : Float) : ofDigits (written x).whole < UInt64.size := by
  calc ofDigits (written x).whole < 10 ^ (written x).whole.length :=
        ofDigits_lt (isWritten_written x).whole
    _ ≤ 10 ^ 16 := Nat.pow_le_pow_right (by norm_num) (length_whole_written x)
    _ < UInt64.size := by norm_num [UInt64.size]

/-- What is written for a double lies at most half a place above it. -/
theorem value_written_le {x : Float} {q : ℚ} (hq : HasValue x q) :
    (written x).toDecimal.value ≤ |q| + halfPlace := by
  have hnearest : nearest (written x).toDecimal.value = |q| := by
    rw [value_written, nearest_shortest _ hq]
  have hlt : (written x).toDecimal.value < 2 ^ (1024 : ℤ) := by
    by_contra hge
    have hle := le_nearest (isDouble_two_zpow (by norm_num)) (not_lt.1 hge)
    exact absurd hq.abs_lt (not_lt.2 (hle.trans_eq hnearest))
  have habs : |(written x).toDecimal.value| ≤ 2 ^ (1024 : ℤ) := by
    rw [abs_of_nonneg (Decimal.value_nonneg _)]
    exact hlt.le
  have herr := abs_le.1 (abs_nearest_sub_le_halfPlace habs)
  rw [hnearest] at herr
  linarith

/-- **What is written for a finite double is read as a finite one.** -/
theorem isFinite_scaledFloat_written {x : Float} (h : x.isFinite = true) :
    (written x).scaledFloat.isFinite = true := by
  obtain ⟨q, hq⟩ := isFinite_iff.1 h
  rcases hq.abs_le_or with hle | ⟨s, m, hm, htop, rfl⟩
  · have hroom : (written x).toDecimal.value * (1 + 1 / 2 ^ 53) ^ 2 < overflow := by
      have hvalue : (written x).toDecimal.value ≤ (2 ^ 54 - 5) * halfPlace := by
        linarith [value_written_le hq]
      calc (written x).toDecimal.value * (1 + 1 / 2 ^ 53) ^ 2
          ≤ (2 ^ 54 - 5) * halfPlace * (1 + 1 / 2 ^ 53) ^ 2 :=
            mul_le_mul_of_nonneg_right hvalue (by positivity)
        _ = (2 ^ 54 - 5) * (1 + 1 / 2 ^ 53) ^ 2 * halfPlace := by ring
        _ < overflow := mul_lt_mul_of_pos_right (by norm_num) halfPlace_pos
    obtain ⟨p, hp⟩ := exists_hasValue_scaleBy (leading_fst_lt (written x))
      (leading_le (ofDigits_whole_written_lt x)) hroom
    change (applySign (written x).isNegative _).isFinite = true
    rw [isFinite_iff, applySign]
    split_ifs
    · exact ⟨_, hp.neg⟩
    · exact ⟨_, hp⟩
  · exact isFinite_scaledFloat_top s hm htop

/-! ## Short numerals -/

theorem getElem?_exactPowers :
    ∀ k < 23, Float.exactlyRepresentablePowersOfTen[k]? = some (powerOfTen k) := by
  decide +kernel

theorem ofNat_eq {n : ℕ} (h : n < 2 ^ 53) : Float.ofNat n = n.toUInt64.toFloat := by
  rcases eq_or_ne n 0 with rfl | hn
  · rfl
  · exact (hasValue_ofNat h).eq_of_ne_zero (hasValue_toUInt64 h) (by exact_mod_cast hn)

/-- Numbers of 53 bits are scaled as they are read. -/
theorem scaleBy_eq_ofScientific {n : ℕ} {e : ℤ} (hn : n < 2 ^ 53) (he : e.natAbs ≤ 22) :
    scaleBy (.ofNat n) e = Float.ofScientific n (e < 0) e.natAbs := by
  have hsize : e.natAbs < Float.exactlyRepresentablePowersOfTen.size := Nat.lt_succ_of_le he
  have hpower : Float.exactlyRepresentablePowersOfTen[e.natAbs] = powerOfTen e.natAbs := by
    have h := getElem?_exactPowers e.natAbs (by omega)
    rwa [Array.getElem?_eq_getElem hsize, Option.some_inj] at h
  rw [Float.ofScientific, dif_pos ⟨hn, he⟩, ← ofNat_eq hn, hpower]
  unfold scaleBy
  by_cases hsign : e < 0
  · simp only [hsign, decide_true, if_true]
    rw [if_neg (by omega), if_neg (by omega), if_pos (by omega)]
  · simp only [hsign, decide_false, Bool.false_eq_true, if_false]
    rw [if_neg (by omega), if_pos (by omega), show e.toNat = e.natAbs by omega]

/-- **Short numerals are read right**: scaling is exact but for one rounding if the digits fit a
mantissa and the power of ten is a double. -/
theorem scaledFloat_eq_toFloat {n : Numeral} (hdigits : n.toDecimal.coefficient < 2 ^ 53)
    (hexp : n.toDecimal.exponent.natAbs ≤ 22) : n.scaledFloat = n.toFloat := by
  have hlead := leading_of_lt (hdigits.trans (by norm_num [UInt64.size]))
  rw [scaledFloat, hlead, toFloat, Decimal.toFloat, ← scaleBy_eq_ofScientific hdigits hexp]

end Numeral

end TierBudget
