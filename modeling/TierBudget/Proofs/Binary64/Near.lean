import Mathlib.Algebra.Order.BigOperators.Group.List
import Mathlib.Algebra.Order.Field.Power
import TierBudget.Proofs.Binary64.Arithmetic
/-!
# Errors by the number of roundings

`Near k x y` says of two numbers that are not negative that each is at least the other one shrunk
`k` times by `1 - 2 ^ -53`, as after `k` roundings. Products and quotients add up the roundings, and
sums need no more than their summands. A normal number is one rounding away from its double
(`near_nearest`), and so is every sum of two doubles (`near_nearest_add`), which makes a running sum
of `n` weights `n` roundings away from their sum, however small they are (`exists_sum`). In the end
`k` roundings are an error of about `k / 2 ^ 53` (`Near.abs_sub_le`).
-/

namespace TierBudget.Binary64

/-- What rounding leaves of a number at least. -/
def shrink : ℚ := 1 - 1 / 2 ^ 53

theorem shrink_pos : 0 < shrink := by norm_num [shrink]

theorem shrink_le_one : shrink ≤ 1 := by norm_num [shrink]

theorem shrink_pow_pos (k : ℕ) : 0 < shrink ^ k := pow_pos shrink_pos k

theorem shrink_pow_le_one (k : ℕ) : shrink ^ k ≤ 1 := pow_le_one₀ shrink_pos.le shrink_le_one

theorem le_shrink_pow (k : ℕ) : 1 - k / 2 ^ 53 ≤ shrink ^ k := by
  calc 1 - (k : ℚ) / 2 ^ 53 = 1 + k * -(1 / 2 ^ 53) := by ring
    _ ≤ (1 + -(1 / 2 ^ 53)) ^ k := one_add_mul_le_pow (by norm_num) k
    _ = shrink ^ k := by rw [shrink, sub_eq_add_neg]

/-- At most `k` roundings lie between two numbers. -/
structure Near (k : ℕ) (x y : ℚ) : Prop where
  le : shrink ^ k * y ≤ x
  ge : shrink ^ k * x ≤ y

namespace Near

variable {k l : ℕ} {x y z x' y' : ℚ}

theorem refl (hx : 0 ≤ x) (k : ℕ) : Near k x x :=
  ⟨mul_le_of_le_one_left hx (shrink_pow_le_one k), mul_le_of_le_one_left hx (shrink_pow_le_one k)⟩

theorem trans (h : Near k x y) (h' : Near l y z) : Near (k + l) x z where
  le := by
    rw [pow_add, mul_assoc]
    exact (mul_le_mul_of_nonneg_left h'.le (shrink_pow_pos k).le).trans h.le
  ge := by
    rw [pow_add, mul_comm (shrink ^ k), mul_assoc]
    exact (mul_le_mul_of_nonneg_left h.ge (shrink_pow_pos l).le).trans h'.ge

theorem mono (h : Near k x y) (hx : 0 ≤ x) (hy : 0 ≤ y) (hkl : k ≤ l) : Near l x y := by
  have hle := pow_le_pow_of_le_one shrink_pos.le shrink_le_one hkl
  exact ⟨(mul_le_mul_of_nonneg_right hle hy).trans h.le,
    (mul_le_mul_of_nonneg_right hle hx).trans h.ge⟩

theorem nonneg (h : Near k x y) (hy : 0 ≤ y) : 0 ≤ x :=
  (mul_nonneg (shrink_pow_pos k).le hy).trans h.le

theorem pos (h : Near k x y) (hy : 0 < y) : 0 < x := (mul_pos (shrink_pow_pos k) hy).trans_le h.le

theorem add (h : Near k x y) (h' : Near k x' y') : Near k (x + x') (y + y') where
  le := by
    rw [mul_add]
    exact add_le_add h.le h'.le
  ge := by
    rw [mul_add]
    exact add_le_add h.ge h'.ge

theorem mul (h : Near k x y) (h' : Near l x' y') (hx : 0 ≤ x) (hy : 0 ≤ y) (hx' : 0 ≤ x')
    (hy' : 0 ≤ y') : Near (k + l) (x * x') (y * y') where
  le := by
    rw [pow_add, mul_mul_mul_comm]
    exact mul_le_mul h.le h'.le (mul_nonneg (shrink_pow_pos l).le hy') hx
  ge := by
    rw [pow_add, mul_mul_mul_comm]
    exact mul_le_mul h.ge h'.ge (mul_nonneg (shrink_pow_pos l).le hx') hy

theorem inv (h : Near k x y) (hx : 0 < x) (hy : 0 < y) : Near k x⁻¹ y⁻¹ where
  le := by
    rw [← div_eq_mul_inv, div_le_iff₀ hy, ← div_eq_inv_mul, le_div_iff₀ hx]
    exact h.ge
  ge := by
    rw [← div_eq_mul_inv, div_le_iff₀ hx, ← div_eq_inv_mul, le_div_iff₀ hy]
    exact h.le

theorem div (h : Near k x y) (h' : Near l x' y') (hx : 0 ≤ x) (hy : 0 ≤ y) (hx' : 0 < x')
    (hy' : 0 < y') : Near (k + l) (x / x') (y / y') := by
  rw [div_eq_mul_inv, div_eq_mul_inv]
  exact h.mul (h'.inv hx' hy') hx hy (inv_pos.2 hx').le (inv_pos.2 hy').le

theorem mul_right (h : Near k x y) (hz : 0 ≤ z) : Near k (x * z) (y * z) where
  le := by
    rw [← mul_assoc]
    exact mul_le_mul_of_nonneg_right h.le hz
  ge := by
    rw [← mul_assoc]
    exact mul_le_mul_of_nonneg_right h.ge hz

theorem sum {α : Type} {f g : α → ℚ} :
    ∀ {l : List α}, (∀ i ∈ l, Near k (f i) (g i)) → Near k (l.map f).sum (l.map g).sum
  | [], _ => by simpa using refl le_rfl k
  | i :: l, h => by
    rw [List.forall_mem_cons] at h
    rw [List.map_cons, List.map_cons, List.sum_cons, List.sum_cons]
    exact h.1.add (sum h.2)

/-- **The error that so many roundings make**, as long as they do not take away a quarter. -/
theorem abs_sub_le (h : Near k x y) (hy : 0 ≤ y) (hk : k ≤ 2 ^ 51) :
    |x - y| ≤ 4 / 3 * k / 2 ^ 53 * y := by
  have hpow := le_shrink_pow k
  have hkq : (k : ℚ) / 2 ^ 53 ≤ 1 / 4 := by
    have : (k : ℚ) ≤ 2 ^ 51 := by exact_mod_cast hk
    calc (k : ℚ) / 2 ^ 53 ≤ 2 ^ 51 / 2 ^ 53 := by gcongr
      _ = 1 / 4 := by norm_num
  have hsplit : 4 / 3 * (k : ℚ) / 2 ^ 53 * y = 4 / 3 * (k / 2 ^ 53 * y) := by ring
  have hx : 0 ≤ x := h.nonneg hy
  have hlow := (mul_le_mul_of_nonneg_right hpow hy).trans h.le
  have hhigh := (mul_le_mul_of_nonneg_right hpow hx).trans h.ge
  have hmul : 0 ≤ (k : ℚ) / 2 ^ 53 * y := by positivity
  have hxy : (k : ℚ) / 2 ^ 53 * x ≤ 4 / 3 * (k / 2 ^ 53 * y) := by
    have hx' : x ≤ 4 / 3 * y := by
      have := mul_le_mul_of_nonneg_right hkq hx
      linarith
    have := mul_le_mul_of_nonneg_left hx' (show (0 : ℚ) ≤ k / 2 ^ 53 by positivity)
    linarith
  rw [hsplit, abs_le]
  constructor <;> linarith

end Near

/-! ## Rounding -/

/-- A relative error is a rounding. -/
theorem near_of_abs_sub_le {x y : ℚ} (hy : 0 ≤ y) (h : |x - y| ≤ y / 2 ^ 53) : Near 1 x y := by
  rw [abs_le] at h
  refine ⟨?_, ?_⟩ <;> rw [pow_one, shrink] <;> linarith

theorem near_nearest {q : ℚ} (h : 2 ^ (-1022 : ℤ) ≤ q) : Near 1 (nearest q) q := by
  have hq : 0 ≤ q := (two_zpow_pos _).le.trans h
  have hround := abs_nearest_sub_le_mul (q := q) (by rwa [abs_of_nonneg hq])
  rw [abs_of_nonneg hq] at hround
  exact near_of_abs_sub_le hq hround

/-- Every double is a multiple of the smallest one. -/
theorem IsDouble.exists_eq_mul {q : ℚ} (h : IsDouble q) : ∃ m : ℤ, q = m * 2 ^ (-1074 : ℤ) := by
  obtain ⟨m, e, -, he, rfl⟩ := h
  obtain ⟨k, hk⟩ := Int.le.dest he
  refine ⟨m * 2 ^ k, ?_⟩
  rw [← hk, zpow_add₀ (by norm_num), zpow_natCast, Int.cast_mul, Int.cast_pow, Int.cast_ofNat,
    mul_assoc, mul_comm (2 ^ k)]

/-- **A sum of two doubles is one rounding away from its double**, because below the normal numbers
it is exact. -/
theorem near_nearest_add {p q : ℚ} (hp : IsDouble p) (hq : IsDouble q) (h : 0 ≤ p + q) :
    Near 1 (nearest (p + q)) (p + q) := by
  rcases le_or_gt (2 ^ (-1022 : ℤ)) (p + q) with hnormal | hsmall
  · exact near_nearest hnormal
  · obtain ⟨m, hm⟩ := hp.exists_eq_mul
    obtain ⟨n, hn⟩ := hq.exists_eq_mul
    have hsum : p + q = (m + n : ℤ) * 2 ^ (-1074 : ℤ) := by
      rw [hm, hn, ← add_mul, Int.cast_add]
    have hbound : |m + n| ≤ 2 ^ 53 := by
      have hlt : |((m + n : ℤ) : ℚ)| * 2 ^ (-1074 : ℤ) < 2 ^ (52 : ℤ) * 2 ^ (-1074 : ℤ) := by
        rw [← zpow_add₀ (by norm_num), ← abs_of_pos (two_zpow_pos (-1074)), ← abs_mul, ← hsum,
          abs_of_nonneg h]
        exact hsmall
      have hlt := lt_of_mul_lt_mul_right hlt (two_zpow_pos _).le
      have hint : |m + n| < 2 ^ 52 := by exact_mod_cast hlt
      exact hint.le.trans (by norm_num)
    have hdouble : IsDouble (p + q) := ⟨m + n, -1074, hbound, le_rfl, hsum⟩
    rw [nearest_eq_self hdouble]
    exact .refl h 1

/-! ## Running sums -/

variable {α : Type} {f : α → Float} {x : α → ℚ}

/-- The running sum of weights, from a sum of `k` of them on. -/
theorem exists_foldl_add :
    ∀ {l : List α} {acc : Float} {s a : ℚ} {k : ℕ}, HasValue acc s → 0 ≤ a → a ≤ k →
      Near k s a → k + l.length ≤ 2 ^ 51 →
      (∀ i ∈ l, HasValue (f i) (x i) ∧ 0 ≤ x i ∧ x i ≤ 1) →
      ∃ t, HasValue ((l.map f).foldl (· + ·) acc) t ∧
        Near (k + l.length) t (a + (l.map x).sum) ∧ s ≤ t ∧ ∀ i ∈ l, x i ≤ t
  | [], acc, s, a, k, hacc, _, _, hs, _, _ =>
    ⟨s, hacc, by simpa using hs, le_rfl, fun _ hi => (List.not_mem_nil hi).elim⟩
  | i :: l, acc, s, a, k, hacc, ha₀, hak, hs, hlen, hl => by
    obtain ⟨hv, hv₀, hv₁⟩ := hl i List.mem_cons_self
    rw [List.length_cons] at hlen
    have hs₀ : 0 ≤ s := hs.nonneg ha₀
    have hle : |s + x i| ≤ 2 ^ 64 := by
      have hk : (k : ℚ) ≤ 2 ^ 51 := by exact_mod_cast (by omega : k ≤ 2 ^ 51)
      have hpow : 3 / 4 ≤ shrink ^ k := by
        refine le_trans ?_ (le_shrink_pow k)
        linarith
      have := (mul_le_mul_of_nonneg_right hpow hs₀).trans hs.ge
      rw [abs_of_nonneg (add_nonneg hs₀ hv₀)]
      linarith
    have hsum : HasValue (acc + f i) (nearest (s + x i)) :=
      hacc.add hv (abs_le_of_le_two_pow hle)
    have hnear : Near (k + 1) (nearest (s + x i)) (a + x i) := by
      rw [add_comm k]
      exact (near_nearest_add hacc.isDouble hv.isDouble (add_nonneg hs₀ hv₀)).trans
        (hs.add (.refl hv₀ k))
    have hgrows : s ≤ nearest (s + x i) := le_nearest hacc.isDouble (by linarith)
    obtain ⟨t, ht, hnear, hst, hmem⟩ := exists_foldl_add (l := l) hsum (add_nonneg ha₀ hv₀)
      (by push_cast; linarith) hnear (by omega) fun j hj => hl j (List.mem_cons_of_mem _ hj)
    refine ⟨t, ht, ?_, hgrows.trans hst, ?_⟩
    · rw [List.map_cons, List.sum_cons, List.length_cons, ← add_assoc, ← add_assoc,
        add_right_comm k]
      exact hnear
    · rintro j (_ | ⟨_, hj⟩)
      · exact (le_nearest hv.isDouble (by linarith)).trans hst
      · exact hmem j hj

/-- **A running sum of weights is as many roundings away from their sum as there are weights**, and
at least as large as each of them. -/
theorem exists_sum {l : List α} (hlen : l.length ≤ 2 ^ 51)
    (hl : ∀ i ∈ l, HasValue (f i) (x i) ∧ 0 ≤ x i ∧ x i ≤ 1) :
    ∃ t, HasValue ((l.map f).foldl (· + ·) 0) t ∧ Near l.length t (l.map x).sum ∧
      ∀ i ∈ l, x i ≤ t := by
  obtain ⟨t, ht, hnear, -, hmem⟩ := exists_foldl_add (k := 0) (a := 0) hasValue_zero le_rfl
    (by simp) (.refl le_rfl 0) (by rwa [zero_add]) hl
  rw [zero_add, zero_add] at hnear
  exact ⟨t, ht, hnear, hmem⟩

end TierBudget.Binary64
