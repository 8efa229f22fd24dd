import TierBudget.Proofs.Apportionment.Pulled
import TierBudget.Proofs.Rebalanced
/-!
# The counts of the next time

What becomes of the counts of a budget if one of them is set to `x` units, which it nearly is. The
exact parts are the counts, shifted: the target by what it is off, and the others by their parts of
that (`Policy.IsBudget.fairPart_mul_size`). The same counts come out as long as the two ends of this shift are
less than a unit apart (`Policy.IsBudget.countsAfter_eq_self`). Else one unit goes between the target
and one other entry (`Policy.IsBudget.exists_movesUnit`), and then the target is less than half a unit
off (`Policy.IsBudget.abs_countAt_countsAfter_sub_le`).

All this is up to the `leeway` that the rounding of doubles needs, a small part of a unit.
-/

namespace TierBudget

namespace Policy

open Binary64 Apportionment

variable {ι : Type} {p : Policy} {ids : List ι} {fixed : List (FixedEntry ι)} {target : ℕ}

/-! ## What is left to shift -/

/-- The part that an entry besides the target has of what the others hold, or an even part if they
hold nothing. -/
def heldPart (fixed : List (FixedEntry ι)) (target j : ℕ) : ℚ :=
  if weight (fixed.eraseIdx target) = 0 then 1 / (fixed.eraseIdx target).length
  else countAt fixed j / weight (fixed.eraseIdx target)

theorem heldPart_nonneg (fixed : List (FixedEntry ι)) (target j : ℕ) :
    0 ≤ heldPart fixed target j := by
  unfold heldPart
  split <;> positivity

theorem otherPart_eq_mul_heldPart (d : ℚ) {j : ℕ} (hj : j < fixed.length) :
    otherPart (fixed.eraseIdx target) d fixed[j] = (1 - d) * heldPart fixed target j := by
  rw [otherPart, heldPart, countAt_of_lt hj]

/-- The target and the others hold all counts. -/
theorem countAt_add_weight (hi : target < fixed.length) :
    countAt fixed target + weight (fixed.eraseIdx target) =
      (fixed.map fun e => e.count.toNat).sum := by
  have hi' : target < (fixed.map fun e => e.count.toNat).length := by rwa [List.length_map]
  rw [← List.CommMonoid.add_sum_eraseIdx hi', List.getElem_map, countAt_of_lt hi, weight,
    List.eraseIdx_map]

/-- None of the others has more than they have together. -/
theorem countAt_le_weight {j : ℕ} (hj : j < fixed.length) (hne : j ≠ target) :
    countAt fixed j ≤ weight (fixed.eraseIdx target) := by
  have hmem : fixed[j] ∈ fixed.eraseIdx target :=
    List.mem_eraseIdx_iff_getElem.2 ⟨j, hj, hne, rfl⟩
  rw [countAt_of_lt hj]
  exact count_le_of_sum_le le_rfl hmem

theorem countAt_eq_weight_mul {j : ℕ} (hj : j < fixed.length) (hne : j ≠ target) :
    (countAt fixed j : ℚ) = weight (fixed.eraseIdx target) * heldPart fixed target j := by
  rw [heldPart]
  split
  · next hzero =>
    have hcount : countAt fixed j = 0 :=
      Nat.le_zero.1 ((countAt_le_weight hj hne).trans hzero.le)
    rw [hcount, hzero, Nat.cast_zero, zero_mul]
  · next hpos => rw [mul_div_cancel₀ _ (Nat.cast_ne_zero.2 hpos)]

theorem sum_countAt {n : ℕ} (hlen : fixed.length = n) :
    ∑ j : Fin n, countAt fixed j = (fixed.map fun e => e.count.toNat).sum := by
  subst hlen
  rw [← List.sum_ofFn]
  refine congrArg List.sum (List.ext_getElem (by simp) fun j hj _ => ?_)
  rw [List.length_ofFn] at hj
  rw [List.getElem_ofFn, List.getElem_map, countAt_of_lt hj]

/-- The parts of the others add up to one. -/
theorem sum_heldPart {n : ℕ} (hlen : fixed.length = n) (hn : 2 ≤ n) (i : Fin n) :
    ∑ j ∈ Finset.univ.erase i, heldPart fixed i j = 1 := by
  have hi : (i : ℕ) < fixed.length := hlen ▸ i.isLt
  by_cases hzero : weight (fixed.eraseIdx i) = 0
  · have hrest : (fixed.eraseIdx i).length = n - 1 := by rw [List.length_eraseIdx_of_lt hi, hlen]
    have hne : ((n - 1 : ℕ) : ℚ) ≠ 0 := Nat.cast_ne_zero.2 (by omega)
    simp only [heldPart, if_pos hzero, hrest, Finset.sum_const, nsmul_eq_mul]
    rw [Finset.card_erase_of_mem (Finset.mem_univ i), Finset.card_univ, Fintype.card_fin,
      mul_one_div_cancel hne]
  · have hne : (weight (fixed.eraseIdx i) : ℚ) ≠ 0 := Nat.cast_ne_zero.2 hzero
    have hsum : ((countAt fixed i + weight (fixed.eraseIdx i) : ℕ) : ℚ) =
        countAt fixed i + ∑ j ∈ Finset.univ.erase i, (countAt fixed j : ℚ) := by
      rw [countAt_add_weight hi, ← sum_countAt hlen, Nat.cast_sum,
        Finset.add_sum_erase _ (fun j : Fin n => (countAt fixed j : ℚ)) (Finset.mem_univ i)]
    push_cast at hsum
    simp only [heldPart, if_neg hzero]
    rw [← Finset.sum_div, ← add_left_cancel hsum, div_self hne]

/-- How far an entry is from what it is to get of the next time: the target from `x`, and the others
by their parts of what the target has above `x`. -/
def shift (fixed : List (FixedEntry ι)) (target : ℕ) (x : ℚ) (j : ℕ) : ℚ :=
  if j = target then x - countAt fixed target
  else (countAt fixed target - x) * heldPart fixed target j

/-- **The exact parts are the counts, shifted.** -/
theorem IsBudget.fairPart_mul_size (h : p.IsBudget ids fixed) (hi : target < fixed.length) (d : ℚ)
    {j : ℕ} (hj : j < fixed.length) :
    fairPart fixed target d (fixed[j], j) * p.scale.size.toNat =
      countAt fixed j + shift fixed target (d * p.scale.size.toNat) j := by
  have hsum : (p.scale.size.toNat : ℚ) = countAt fixed target + weight (fixed.eraseIdx target) := by
    rw [← h.sum_eq, ← countAt_add_weight hi, Nat.cast_add]
  rw [fairPart, shift]
  dsimp only
  by_cases hne : j = target
  · rw [if_pos hne, if_pos hne, hne]
    ring
  · rw [if_neg hne, if_neg hne, otherPart_eq_mul_heldPart d hj, countAt_eq_weight_mul hj hne, hsum]
    ring

/-- How far the target and another entry are to move against each other. -/
def apart (fixed : List (FixedEntry ι)) (target : ℕ) (x : ℚ) (j : ℕ) : ℚ :=
  |countAt fixed target - x| * (1 + heldPart fixed target j)

theorem heldPart_le_one {j : ℕ} (hj : j < fixed.length) (hne : j ≠ target) :
    heldPart fixed target j ≤ 1 := by
  rw [heldPart]
  split
  · rw [one_div]
    exact Nat.cast_inv_le_one _
  · exact div_le_one_of_le₀ (Nat.cast_le.2 (countAt_le_weight hj hne)) (Nat.cast_nonneg _)

theorem le_apart (x : ℚ) (j : ℕ) :
    |countAt fixed target - x| ≤ apart fixed target x j :=
  le_mul_of_one_le_right (abs_nonneg _) (le_add_of_nonneg_right (heldPart_nonneg _ _ j))

theorem apart_le (x : ℚ) {j : ℕ} (hj : j < fixed.length) (hne : j ≠ target) :
    apart fixed target x j ≤ 2 * |countAt fixed target - x| := by
  rw [apart, mul_comm]
  exact mul_le_mul_of_nonneg_right (by linarith [heldPart_le_one hj hne]) (abs_nonneg _)

/-! ## The leeway -/

/-- What the rounding of doubles may hide of a unit, with `n` counts at a scale of size `S`. -/
def leeway (n S : ℕ) : ℚ := (n + 3) * S / 2 ^ 49 + 1 / 2 ^ 27

theorem slack_add_le_leeway (n S : ℕ) :
    3 * slack n S + 1 / 2 ^ 28 + 1 / 2 ^ 29 ≤ leeway n S := by
  have hmul : (0 : ℚ) ≤ n * S := by positivity
  have hS : (0 : ℚ) ≤ S := Nat.cast_nonneg _
  unfold slack leeway
  linarith

theorem overshoot_le_slack (s : Scale) (share : Float) (n : ℕ) :
    overshoot (scaledValue s share) ≤ slack n s.size.toNat + 1 / 2 ^ 29 := by
  have hle := scaledValue_le s share
  have hmul : (0 : ℚ) ≤ n * s.size.toNat := by positivity
  have hS : (0 : ℚ) ≤ s.size.toNat := Nat.cast_nonneg _
  unfold overshoot slack
  linarith

theorem slack_nonneg (n S : ℕ) : 0 ≤ slack n S := by
  unfold slack
  positivity

theorem leeway_le {n S : ℕ} (hS : S ≤ 2 ^ 32) (h : n ^ 2 * S ≤ 2 ^ 50) :
    leeway n S ≤ 1 / 250 := by
  have hmul := cast_mul_le h hS
  have hS : (S : ℚ) ≤ 2 ^ 32 := by exact_mod_cast hS
  unfold leeway
  linarith

/-! ## The counts of the next time -/

/-- The counts once the target has been set. -/
def countsAfter (p : Policy) (fixed : List (FixedEntry ι)) (target : ℕ) (desired : Float) :
    List (FixedEntry ι) := p.toFixed (redistribute (p.ofFixed fixed) target desired)

@[simp] theorem length_countsAfter (p : Policy) (fixed : List (FixedEntry ι)) (target : ℕ)
    (desired : Float) : (countsAfter p fixed target desired).length = fixed.length := by
  simp [countsAfter, redistribute, ofFixed]

theorem IsBudget.countsAfter (h : p.IsBudget ids fixed) (hi : target < fixed.length)
    (desired : Float) : p.IsBudget ids (countsAfter p fixed target desired) := by
  have hids : (redistribute (p.ofFixed fixed) target desired).map Entry.id = ids := by
    rw [map_id_redistribute, map_id_ofFixed, h.ids_eq]
  rw [← hids]
  exact p.isBudget_toFixed (redistribute_ne_nil hi)

section

variable (h : p.IsBudget ids fixed) (hi : target < fixed.length) (hlen : 2 ≤ fixed.length)
  (hn : fixed.length ^ 2 * p.scale.size.toNat ≤ 2 ^ 50) (desired : Float)
include h hi hlen hn

/-- The shares of the next time lie close to the shifted counts. -/
theorem IsBudget.exists_shifted_shares :
    ∃ share : FixedEntry ι × ℕ → Float,
      shares ((redistribute (p.ofFixed fixed) target desired).map Entry.unit) =
        fixed.zipIdx.map share ∧
      (∀ j (hj : j < fixed.length), |scaledValue p.scale (share (fixed[j], j)) -
        (countAt fixed j +
          shift fixed target (value (clampUnit desired) * p.scale.size.toNat) j)| ≤
            slack fixed.length p.scale.size.toNat) ∧
      noise p.scale (fixed.zipIdx.map share) ≤ 1 / 10 := by
  obtain ⟨share, hshares, hclose, -, -, hnoise⟩ := h.exists_requested_shares hi hlen hn desired
  refine ⟨share, hshares, fun j hj => ?_, hnoise⟩
  rw [← h.fairPart_mul_size hi _ hj]
  exact hclose _ (List.mem_iff_getElem.2 ⟨j, by simpa using hj, by simp⟩)

/-- The same counts come out if no shift, with its slack, is above `τ` or as far as `1 - τ` below
nothing. -/
theorem IsBudget.countsAfter_eq_of_between {τ : ℚ} (hτ : 0 ≤ τ)
    (hlow : ∀ j < fixed.length, τ + slack fixed.length p.scale.size.toNat + 1 / 2 ^ 28 ≤
      shift fixed target (value (clampUnit desired) * p.scale.size.toNat) j + 1)
    (hhigh : ∀ j < fixed.length,
      shift fixed target (value (clampUnit desired) * p.scale.size.toNat) j +
        slack fixed.length p.scale.size.toNat ≤ τ)
    (hτ₁ : τ + slack fixed.length p.scale.size.toNat + 1 / 2 ^ 29 < 1) :
    Policy.countsAfter p fixed target desired = fixed := by
  obtain ⟨share, hshares, hclose, -⟩ := h.exists_shifted_shares hi hlen hn desired
  have hcounts : (fixed.zipIdx.map fun x => x.1.count.toNat) =
      fixed.map fun e => e.count.toNat := by
    conv_rhs => rw [← List.zipIdx_map_fst 0 fixed, List.map_map]
    rfl
  have hbetween : ∀ x ∈ fixed.zipIdx,
      (x.1.count.toNat : ℚ) + τ + 1 / 2 ^ 28 ≤ scaledValue p.scale (share x) + 1 ∧
        scaledValue p.scale (share x) ≤ x.1.count.toNat + τ := fun x hx => by
    obtain ⟨hj, heq⟩ := List.mem_zipIdx' hx
    have hshare := abs_le.1 (hclose x.2 hj)
    rw [show (fixed[x.2], x.2) = x from Prod.ext heq.symm rfl, countAt_of_lt hj, ← heq] at hshare
    have hlow := hlow x.2 hj
    have hhigh := hhigh x.2 hj
    constructor <;> linarith
  have hsettle := settle_of_between hτ (fun x hx => (hbetween x hx).1)
    (fun x hx => (hbetween x hx).2) (fun x hx => ?_) (hcounts ▸ h.sum_eq)
  · refine map_id_map_count_ext (by simp [Policy.countsAfter]) ?_
    rw [Policy.countsAfter, map_count_toFixed, hshares, apportion, hsettle, hcounts, List.map_map]
    exact List.map_congr_left fun e _ => UInt32.ofNat_toNat
  · have hshare := (hbetween x hx).2
    have hover := overshoot_le_slack p.scale (share x) fixed.length
    linarith

/-- **The same counts come out** if the target and no other entry are to move a unit against each
other. -/
theorem IsBudget.countsAfter_eq_self (hnear : ∀ j < fixed.length, j ≠ target →
    apart fixed target (value (clampUnit desired) * p.scale.size.toNat) j ≤
      1 - leeway fixed.length p.scale.size.toNat) :
    Policy.countsAfter p fixed target desired = fixed := by
  have hleeway := slack_add_le_leeway fixed.length p.scale.size.toNat
  have hslack := slack_le p.scale.size.toNat_lt.le hn
  have hslack₀ := slack_nonneg fixed.length p.scale.size.toNat
  set x := value (clampUnit desired) * p.scale.size.toNat with hx
  have hself : |countAt fixed target - x| ≤ 1 - leeway fixed.length p.scale.size.toNat := by
    obtain ⟨m, hm, hmt⟩ : ∃ m < fixed.length, m ≠ target :=
      ⟨if target = 0 then 1 else 0, by split <;> omega, by split <;> omega⟩
    exact (le_apart x m).trans (hnear m hm hmt)
  rcases le_total x (countAt fixed target) with hle | hle
  · -- the others are to gain, and the target has the most room above it
    have hσ := sub_nonneg.2 hle
    simp only [apart, abs_of_nonneg hσ] at hnear hself
    refine h.countsAfter_eq_of_between hi hlen hn desired (τ := 1 - (countAt fixed target - x) -
      slack fixed.length p.scale.size.toNat - 1 / 2 ^ 28) ?_ (fun j hj => ?_) (fun j hj => ?_) ?_
    · linarith
    · rw [← hx, shift]
      split
      · linarith
      · have := mul_nonneg hσ (heldPart_nonneg fixed target j)
        linarith
    · rw [← hx, shift]
      split
      · linarith
      · next hne =>
        have := hnear j hj hne
        linarith
    · linarith
  · have hσ := sub_nonpos.2 hle
    simp only [apart, abs_of_nonpos hσ] at hnear hself
    refine h.countsAfter_eq_of_between hi hlen hn desired (τ := x - countAt fixed target +
      slack fixed.length p.scale.size.toNat) ?_ (fun j hj => ?_) (fun j hj => ?_) ?_
    · linarith
    · rw [← hx, shift]
      split
      · linarith
      · next hne =>
        have := hnear j hj hne
        linarith
    · rw [← hx, shift]
      split
      · linarith
      · have := mul_nonpos_of_nonpos_of_nonneg hσ
          (heldPart_nonneg fixed target j)
        linarith
    · linarith

/-- **No unit is better placed elsewhere**: no entry is further from what it is to change by than
another one, by more than a unit. -/
theorem IsBudget.shift_sub_le {a b : ℕ} (ha : a < fixed.length) (hb : b < fixed.length) :
    shift fixed target (value (clampUnit desired) * p.scale.size.toNat) a -
        (countAt (Policy.countsAfter p fixed target desired) a - countAt fixed a) ≤
      shift fixed target (value (clampUnit desired) * p.scale.size.toNat) b -
          (countAt (Policy.countsAfter p fixed target desired) b - countAt fixed b) +
        (1 + leeway fixed.length p.scale.size.toNat) := by
  obtain ⟨share, hshares, hclose, hnoise⟩ := h.exists_shifted_shares hi hlen hn desired
  have hleeway := slack_add_le_leeway fixed.length p.scale.size.toNat
  have hlength : (fixed.zipIdx.map share).length = fixed.length := by simp
  have hsettled : (settle p.scale.size.toNat
      ((fixed.zipIdx.map share).map (part p.scale))).length = fixed.length := by simp
  have hcount (j) (hj : j < fixed.length) :
      countAt (Policy.countsAfter p fixed target desired) j =
        (settle p.scale.size.toNat ((fixed.zipIdx.map share).map (part p.scale)))[j] := by
    rw [Policy.countsAfter, countAt_toFixed (redistribute_ne_nil hi), hshares,
      List.getD_eq_getElem]
  have hshare (j) (hj : j < fixed.length) :
      (fixed.zipIdx.map share)[j] = share (fixed[j], j) := by simp
  have hsettle := sub_settle_le_sub_settle (i := a) (j := b) (hnoise.trans_lt (by norm_num))
    (by rwa [hlength]) (by rwa [hlength]) (by rwa [hsettled]) (by rwa [hsettled])
  rw [← hcount a ha, ← hcount b hb, hshare a ha, hshare b hb] at hsettle
  have hover := overshoot_le_slack p.scale (share (fixed[b], b)) fixed.length
  have ha := (abs_le.1 (hclose a ha)).1
  have hb := (abs_le.1 (hclose b hb)).2
  linarith

omit hlen hn in
/-- All changes of counts add up to nothing. -/
theorem IsBudget.sum_countAt_sub : ∑ j : Fin fixed.length,
    ((countAt (Policy.countsAfter p fixed target desired) j : ℤ) - countAt fixed j) = 0 := by
  have hnext := sum_countAt (length_countsAfter p fixed target desired)
  rw [(h.countsAfter hi desired).sum_eq] at hnext
  have hsum := sum_countAt (rfl : fixed.length = _)
  rw [h.sum_eq] at hsum
  rw [Finset.sum_sub_distrib, ← Nat.cast_sum, ← Nat.cast_sum, hnext, hsum, sub_self]

/-- The changes follow the shifts, both taken with the sign under which the target is to lose. -/
theorem IsBudget.pulled {s : ℤ} (hs : s = 1 ∨ s = -1)
    (hσ : 0 ≤ s * (countAt fixed target - value (clampUnit desired) * p.scale.size.toNat))
    (hσ' : s * (countAt fixed target - value (clampUnit desired) * p.scale.size.toNat) ≤ 11 / 10) :
    Pulled (fun j : Fin fixed.length =>
        s * ((countAt (Policy.countsAfter p fixed target desired) j : ℤ) - countAt fixed j))
      (fun j => heldPart fixed target j) ⟨target, hi⟩
      (s * (countAt fixed target - value (clampUnit desired) * p.scale.size.toNat))
      (leeway fixed.length p.scale.size.toNat) := by
  have hne {j : Fin fixed.length} (hj : j ≠ ⟨target, hi⟩) : (j : ℕ) ≠ target :=
    fun heq => hj (Fin.ext heq)
  have hpair (a b : Fin fixed.length) := h.shift_sub_le hi hlen hn desired a.isLt b.isLt
  refine ⟨?_, fun j _ => heldPart_nonneg _ _ j, sum_heldPart rfl hlen ⟨target, hi⟩, hσ, hσ',
    (leeway_le p.scale.size.toNat_lt.le hn).trans (by norm_num), fun j hj => ?_,
    fun j hj l hl => ?_⟩
  · rw [← Finset.mul_sum, h.sum_countAt_sub hi desired, mul_zero]
  · have hup := hpair j ⟨target, hi⟩
    have hdown := hpair ⟨target, hi⟩ j
    simp only [shift, if_neg (hne hj), if_true] at hup hdown
    rw [abs_le]
    rcases hs with rfl | rfl <;> push_cast <;> constructor <;> linarith
  · have hup := hpair j l
    have hdown := hpair l j
    simp only [shift, if_neg (hne hj), if_neg (hne hl)] at hup hdown
    rcases hs with rfl | rfl <;> push_cast <;> linarith

end

/-! ## One unit moves -/

/-- One unit goes from the entry at position `a` to the one at `b`, and all others keep theirs. -/
def MovesUnit (before after : List (FixedEntry ι)) (a b : ℕ) : Prop :=
  countAt after a + 1 = countAt before a ∧ countAt after b = countAt before b + 1 ∧
    ∀ k, k ≠ a → k ≠ b → countAt after k = countAt before k

theorem countAt_of_le {j : ℕ} (hj : fixed.length ≤ j) : countAt fixed j = 0 :=
  List.getD_eq_default _ _ (by rwa [List.length_map])

theorem movesUnit_of_sub_eq {before after : List (FixedEntry ι)} (hlen : after.length = before.length)
    {a b : Fin before.length} (ha : (countAt after a : ℤ) - countAt before a = -1)
    (hb : (countAt after b : ℤ) - countAt before b = 1)
    (hrest : ∀ k : Fin before.length, k ≠ a → k ≠ b → (countAt after k : ℤ) - countAt before k = 0) :
    MovesUnit before after a b := by
  refine ⟨by omega, by omega, fun k hka hkb => ?_⟩
  rcases lt_or_ge k before.length with hk | hk
  · have := hrest ⟨k, hk⟩ (fun heq => hka (congrArg Fin.val heq))
      (fun heq => hkb (congrArg Fin.val heq))
    dsimp only at this
    omega
  · rw [countAt_of_le hk, countAt_of_le (hlen ▸ hk)]

/-- **One unit goes between the target and one other entry** if the target and some entry are to move
by more than a unit against each other: from the target if it has too much, else to it. -/
theorem IsBudget.exists_movesUnit (h : p.IsBudget ids fixed) (hi : target < fixed.length)
    (hlen : 2 ≤ fixed.length) (hn : fixed.length ^ 2 * p.scale.size.toNat ≤ 2 ^ 50)
    {desired : Float}
    (hself : |countAt fixed target - value (clampUnit desired) * p.scale.size.toNat| ≤ 11 / 10)
    {m : ℕ} (hm : m < fixed.length) (hmt : m ≠ target)
    (hfar : 1 + leeway fixed.length p.scale.size.toNat <
      apart fixed target (value (clampUnit desired) * p.scale.size.toNat) m) :
    ∃ j < fixed.length, j ≠ target ∧
      if value (clampUnit desired) * p.scale.size.toNat < countAt fixed target then
        MovesUnit fixed (Policy.countsAfter p fixed target desired) target j
      else MovesUnit fixed (Policy.countsAfter p fixed target desired) j target := by
  have hnext : (Policy.countsAfter p fixed target desired).length = fixed.length :=
    length_countsAfter p fixed target desired
  have hmt' : (⟨m, hm⟩ : Fin fixed.length) ≠ ⟨target, hi⟩ := fun heq => hmt (congrArg Fin.val heq)
  split
  · next hlt =>
    have hσ := sub_pos.2 hlt
    rw [apart, abs_of_pos hσ] at hfar
    rw [abs_of_pos hσ] at hself
    have hpulled := h.pulled hi hlen hn desired (s := 1) (.inl rfl) (by push_cast; linarith)
      (by push_cast; linarith)
    obtain ⟨htarget, j, hj, hone, hrest⟩ := hpulled.exists_change hmt' (by push_cast; linarith)
    simp only [one_mul] at htarget hone hrest
    exact ⟨j, j.isLt, fun heq => hj (Fin.ext heq), movesUnit_of_sub_eq hnext htarget hone hrest⟩
  · next hle =>
    have hσ := sub_nonpos.2 (not_lt.1 hle)
    rw [apart, abs_of_nonpos hσ] at hfar
    rw [abs_of_nonpos hσ] at hself
    have hpulled := h.pulled hi hlen hn desired (s := -1) (.inr rfl) (by push_cast; linarith)
      (by push_cast; linarith)
    obtain ⟨htarget, j, hj, hone, hrest⟩ := hpulled.exists_change hmt' (by push_cast; linarith)
    simp only [neg_one_mul, neg_eq_iff_eq_neg, neg_zero] at htarget hone hrest
    exact ⟨j, j.isLt, fun heq => hj (Fin.ext heq),
      movesUnit_of_sub_eq hnext hone htarget fun k hkj hki => hrest k hki hkj⟩

/-- Once a unit has moved, the target is less than half a unit off. -/
theorem IsBudget.abs_countAt_countsAfter_sub_le (h : p.IsBudget ids fixed)
    (hi : target < fixed.length) (hlen : 2 ≤ fixed.length)
    (hn : fixed.length ^ 2 * p.scale.size.toNat ≤ 2 ^ 50) {desired : Float}
    (hself : |countAt fixed target - value (clampUnit desired) * p.scale.size.toNat| ≤ 11 / 10)
    {m : ℕ} (hm : m < fixed.length) (hmt : m ≠ target)
    (hfar : 1 + leeway fixed.length p.scale.size.toNat <
      apart fixed target (value (clampUnit desired) * p.scale.size.toNat) m) :
    |countAt (Policy.countsAfter p fixed target desired) target -
        value (clampUnit desired) * p.scale.size.toNat| ≤
      (1 - leeway fixed.length p.scale.size.toNat) / 2 := by
  have hleeway := leeway_le p.scale.size.toNat_lt.le hn
  have htwice := apart_le (value (clampUnit desired) * p.scale.size.toNat) hm hmt
  obtain ⟨j, -, -, hmoves⟩ := h.exists_movesUnit hi hlen hn hself hm hmt hfar
  split at hmoves
  · next hlt =>
    have hcount : (countAt (Policy.countsAfter p fixed target desired) target : ℚ) + 1 =
        countAt fixed target := by exact_mod_cast hmoves.1
    rw [abs_of_pos (sub_pos.2 hlt)] at hself htwice
    rw [abs_le]
    constructor <;> linarith
  · next hle =>
    have hcount : (countAt (Policy.countsAfter p fixed target desired) target : ℚ) =
        countAt fixed target + 1 := by exact_mod_cast hmoves.2.1
    rw [abs_of_nonpos (sub_nonpos.2 (not_lt.1 hle))] at hself htwice
    rw [abs_le]
    constructor <;> linarith

/-- The target is hardly more than a unit off once it has been set. -/
theorem IsBudget.abs_countsAfter_target_sub_le (h : p.IsBudget ids fixed)
    (hi : target < fixed.length) (hlen : 2 ≤ fixed.length)
    (hn : fixed.length ^ 2 * p.scale.size.toNat ≤ 2 ^ 50) (desired : Float) :
    |countAt (Policy.countsAfter p fixed target desired) target -
        value (clampUnit desired) * p.scale.size.toNat| ≤ 11 / 10 := by
  obtain ⟨s, hs⟩ := h.exists_requested hi hlen hn desired
  have hslack := slack_le p.scale.size.toNat_lt.le hn
  have hclose := hs.close target hi
  rw [fairPart, if_pos rfl] at hclose
  refine (abs_sub_le _ (s target) _).trans ((add_le_add (hs.within target hi) hclose).trans ?_)
  linarith

/-- A target that is set to a count of the scale is as good as there. -/
theorem IsBudget.abs_countsAfter_decode_sub_le (h : p.IsBudget ids fixed)
    (hi : target < fixed.length) (hlen : 2 ≤ fixed.length)
    (hn : fixed.length ^ 2 * p.scale.size.toNat ≤ 2 ^ 50) {desired : Float} {k : Count}
    (hk : k ≤ p.scale.size) (hdesired : clampUnit desired = p.scale.decode k) :
    |countAt (Policy.countsAfter p fixed target desired) target -
        value (clampUnit desired) * p.scale.size.toNat| ≤
      (1 - leeway fixed.length p.scale.size.toNat) / 2 := by
  obtain ⟨s, hs⟩ := h.exists_requested hi hlen hn desired
  have hleeway := leeway_le p.scale.size.toNat_lt.le hn
  have hunit : clampUnit desired = clampUnit (p.scale.decode k) := by
    rw [hdesired, p.scale.clampUnit_decode]
  rw [hunit] at hs ⊢
  rw [Policy.countsAfter, hs.target_eq hn hi hk rfl, abs_sub_comm]
  have hround := abs_scaledValue_sub_mul_le p.scale (p.scale.decode k)
  rw [abs_sub_comm] at hround
  refine (abs_sub_le _ (scaledValue p.scale (p.scale.decode k)) _).trans
    ((add_le_add hround (p.scale.abs_scaledValue_decode_sub_le hk)).trans ?_)
  norm_num
  linarith

end Policy

end TierBudget
