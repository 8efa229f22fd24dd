import TierBudget.Proofs.Apportionment.Ranks
import TierBudget.Proofs.Apportionment.Recover
/-!
# Fair counts

What every share gets if the shares add up to about the scale. Then the floors leave between none and
one unit for each share (`assigned_le`, `deficit_le`), so that every count is the floor of its share
or one more (`getElem_settle`). It follows that

* a count is hardly more than one unit away from its share (`abs_settle_sub_le`);
* a share that is close enough to a whole number gets that number (`settle_eq_of_close`): if its unit
  went to another one, so many remainders would be as large as its own that they would add up to
  more than what is missing;
* of two shares the one that is not smaller and comes first gets no less (`settle_le_settle`);
* no unit is better placed elsewhere: a share is hardly more than one unit further above its count
  than another one is above its own (`sub_settle_le_sub_settle`).
-/

namespace TierBudget.Apportionment

open Binary64

/-! ## All shares -/

section

variable (scale : Scale) (shares : List Float)

/-- How far rounding takes the shares from a whole: their sum from the scale, and their floors above
themselves. -/
def noise : ℚ :=
  |(shares.map (scaledValue scale)).sum - scale.size.toNat| +
    (shares.map fun x => overshoot (scaledValue scale x)).sum

/-- What is missing when all shares are cut. -/
def deficit : ℕ := scale.size.toNat - assigned (shares.map (part scale))

theorem sum_overshoot_nonneg :
    0 ≤ (shares.map fun x => overshoot (scaledValue scale x)).sum :=
  List.sum_nonneg fun y hy => by
    obtain ⟨x, -, rfl⟩ := List.mem_map.1 hy
    exact overshoot_nonneg (scaledValue_nonneg scale x)

theorem cast_assigned : (assigned (shares.map (part scale)) : ℚ) =
    (shares.map fun x => ((part scale x).floor : ℚ)).sum := by
  rw [assigned, total_eq_sum, Nat.cast_list_sum, List.map_map, List.map_map]
  rfl

variable {scale shares}

/-- Shares that lie close to numbers that add up to the scale make little noise. -/
theorem noise_le {α : Type} {l : List α} {share : α → Float} {x : α → ℚ} {c η : ℚ}
    (h : ∀ a ∈ l, |scaledValue scale (share a) - x a| ≤ c * x a + η)
    (hsum : (l.map x).sum = scale.size.toNat) :
    noise scale (l.map share) ≤
      (c * scale.size.toNat + l.length * η) * 2 + scale.size.toNat / 2 ^ 53 + l.length / 2 ^ 29 := by
  have hbound : (l.map fun a => c * x a + η).sum = c * scale.size.toNat + l.length * η := by
    rw [List.sum_map_add, List.sum_map_mul_left, hsum]
    simp
  have hlow : (scale.size.toNat : ℚ) ≤ (l.map fun a => scaledValue scale (share a)).sum +
      (c * scale.size.toNat + l.length * η) := by
    rw [← hbound, ← hsum, ← List.sum_map_add]
    refine List.sum_le_sum fun a ha => ?_
    have := (abs_le.1 (h a ha)).1
    linarith
  have hhigh : (l.map fun a => scaledValue scale (share a)).sum ≤
      scale.size.toNat + (c * scale.size.toNat + l.length * η) := by
    rw [← hbound]
    conv_rhs => rw [← hsum, ← List.sum_map_add]
    refine List.sum_le_sum fun a ha => ?_
    have := (abs_le.1 (h a ha)).2
    linarith
  have hover : (l.map fun a => overshoot (scaledValue scale (share a))).sum =
      (l.map fun a => scaledValue scale (share a)).sum / 2 ^ 53 + l.length / 2 ^ 29 := by
    simp only [overshoot, List.sum_map_add, div_eq_mul_inv, List.sum_map_mul_right]
    simp
  have habs : |(l.map fun a => scaledValue scale (share a)).sum - scale.size.toNat| ≤
      c * scale.size.toNat + l.length * η := by
    rw [abs_le]
    constructor <;> linarith
  have hnonneg := (abs_nonneg _).trans habs
  rw [noise, List.map_map, List.map_map, Function.comp_def, Function.comp_def, hover]
  linarith

theorem overshoot_le_noise {x : Float} (hx : x ∈ shares) :
    overshoot (scaledValue scale x) ≤ noise scale shares := by
  have hle := List.single_le_sum (l := shares.map fun x => overshoot (scaledValue scale x))
    (fun y hy => by
      obtain ⟨x, -, rfl⟩ := List.mem_map.1 hy
      exact overshoot_nonneg (scaledValue_nonneg scale x)) _ (List.mem_map_of_mem hx)
  exact hle.trans (le_add_of_nonneg_left (abs_nonneg _))

/-- **The floors do not exceed the scale.** -/
theorem assigned_le (h : noise scale shares < 1) :
    assigned (shares.map (part scale)) ≤ scale.size.toNat := by
  have hfloors : (assigned (shares.map (part scale)) : ℚ) ≤ (shares.map (scaledValue scale)).sum +
      (shares.map fun x => overshoot (scaledValue scale x)).sum := by
    rw [cast_assigned, ← List.sum_map_add]
    exact List.sum_le_sum fun x _ => floor_le scale x
  have habs := (abs_le.1 (le_refl |(shares.map (scaledValue scale)).sum - scale.size.toNat|)).2
  unfold noise at h
  have hlt : (assigned (shares.map (part scale)) : ℚ) < scale.size.toNat + 1 := by linarith
  exact Nat.lt_add_one_iff.1 (by exact_mod_cast hlt)

theorem cast_deficit (h : noise scale shares < 1) : (deficit scale shares : ℚ) =
    scale.size.toNat - (shares.map fun x => ((part scale x).floor : ℚ)).sum := by
  rw [deficit, Nat.cast_sub (assigned_le h), cast_assigned]

/-- **The missing units are as many as what is left over of all shares**, but for the noise. -/
theorem abs_sum_leftValue_sub_le (h : noise scale shares < 1) :
    |(shares.map (leftValue scale)).sum - deficit scale shares| ≤ noise scale shares := by
  have hlow : (shares.map (scaledValue scale)).sum ≤
      (shares.map (leftValue scale)).sum + (shares.map fun x => ((part scale x).floor : ℚ)).sum := by
    rw [← List.sum_map_add]
    refine List.sum_le_sum fun x _ => ?_
    rw [leftValue_eq]
    have := le_max_right 0 (scaledValue scale x - (part scale x).floor)
    linarith
  have hhigh : (shares.map (leftValue scale)).sum +
      (shares.map fun x => ((part scale x).floor : ℚ)).sum ≤
        (shares.map (scaledValue scale)).sum +
          (shares.map fun x => overshoot (scaledValue scale x)).sum := by
    rw [← List.sum_map_add, ← List.sum_map_add]
    refine List.sum_le_sum fun x _ => ?_
    have hfloor := floor_le scale x
    have hover := overshoot_nonneg (scaledValue_nonneg scale x)
    rw [leftValue_eq, ← le_sub_iff_add_le]
    exact max_le (by linarith) (by linarith)
  have hsum := abs_le.1 (le_refl |(shares.map (scaledValue scale)).sum - scale.size.toNat|)
  have hover := sum_overshoot_nonneg scale shares
  rw [cast_deficit h, abs_le, noise]
  constructor <;> linarith [hsum.1, hsum.2]

/-- **At most one unit is missing for each share.** -/
theorem deficit_le (h : noise scale shares < 1) : deficit scale shares ≤ shares.length := by
  have hleft : (shares.map (leftValue scale)).sum ≤ shares.length := by
    have := List.sum_le_card_nsmul (shares.map (leftValue scale)) 1 fun y hy => by
      obtain ⟨x, -, rfl⟩ := List.mem_map.1 hy
      exact (leftValue_lt_one scale x).le
    simpa using this
  have hdiff := (abs_le.1 (abs_sum_leftValue_sub_le h)).1
  have hlt : (deficit scale shares : ℚ) < shares.length + 1 := by linarith
  exact Nat.lt_add_one_iff.1 (by exact_mod_cast hlt)

/-- **Every count is the floor of its share or one more**, and it is more for the first of those who
are given to. -/
theorem getElem_settle (h : noise scale shares < 1) {i : ℕ} (hi : i < shares.length)
    (hi' : i < (settle scale.size.toNat (shares.map (part scale))).length) :
    (settle scale.size.toNat (shares.map (part scale)))[i] = (part scale shares[i]).floor +
      if (givingOrder (shares.map (part scale))).idxOf i < deficit scale shares then 1 else 0 := by
  have hsettle : settle scale.size.toNat (shares.map (part scale)) =
      handOut (shares.map (part scale)) (deficit scale shares) := if_pos (assigned_le h)
  have hlen : deficit scale shares ≤ (shares.map (part scale)).length := by
    rw [List.length_map]
    exact deficit_le h
  simp only [hsettle]
  rw [getElem_handOut_of_le hlen (by rwa [List.length_map]), List.getElem_map]

/-! ## Within a unit -/

/-- **A count is hardly more than a unit away from its share.** -/
theorem abs_settle_sub_le (h : noise scale shares < 1) {i : ℕ} (hi : i < shares.length)
    (hi' : i < (settle scale.size.toNat (shares.map (part scale))).length) :
    |((settle scale.size.toNat (shares.map (part scale)))[i] : ℚ) - scaledValue scale shares[i]| ≤
      1 + overshoot (scaledValue scale shares[i]) := by
  have hfloor := floor_le scale shares[i]
  have hlt := lt_floor_add_one scale shares[i]
  have hover := overshoot_nonneg (scaledValue_nonneg scale shares[i])
  rw [getElem_settle h hi, abs_le]
  push_cast
  split <;> constructor <;> linarith

/-! ## Whole numbers -/

theorem mul_countP_le_sum {α : Type} {g : α → ℚ} {p : α → Bool} {c : ℚ} :
    ∀ {l : List α}, (∀ x ∈ l, 0 ≤ g x) → (∀ x ∈ l, p x → c ≤ g x) →
      c * l.countP p ≤ (l.map g).sum
  | [], _, _ => by simp
  | x :: l, h₀, hc => by
    rw [List.forall_mem_cons] at h₀ hc
    have ih := mul_countP_le_sum h₀.2 hc.2
    rw [List.map_cons, List.sum_cons, List.countP_cons]
    split
    · next hp =>
      have := hc.1 hp
      push_cast
      linarith
    · have := h₀.1
      push_cast
      linarith

theorem sum_le_countP_add {α : Type} {g : α → ℚ} {p : α → Bool} {c : ℚ} (hc₀ : 0 ≤ c) :
    ∀ {l : List α}, (∀ x ∈ l, g x ≤ 1) → (∀ x ∈ l, ¬ p x → g x ≤ c) →
      (l.map g).sum ≤ l.countP p + l.length * c
  | [], _, _ => by simp
  | x :: l, h₁, hc => by
    rw [List.forall_mem_cons] at h₁ hc
    have ih := sum_le_countP_add hc₀ h₁.2 hc.2
    rw [List.map_cons, List.sum_cons, List.countP_cons, List.length_cons]
    split
    · have := h₁.1
      push_cast
      linarith
    · next hp =>
      have := hc.1 hp
      push_cast
      linarith

/-- **If nearly a unit is left of a share, it is given one**: that much is left of all those who come
before it, and all of it is missing. -/
theorem idxOf_lt_deficit {i : ℕ} {ε : ℚ} (hi : i < shares.length)
    (hε : 1 - ε ≤ leftValue scale shares[i])
    (h : shares.length * (ε + 1 / 2 ^ 29) + noise scale shares < 1)
    (hnoise : noise scale shares < 1) :
    (givingOrder (shares.map (part scale))).idxOf i < deficit scale shares := by
  have hi' : i < (shares.map (part scale)).length := by rwa [List.length_map]
  set m := (shares.map (part scale)).countP
    ((part scale shares[i]).remainder ≤ ·.remainder) with hm
  have hrank : (givingOrder (shares.map (part scale))).idxOf i < m := by
    rw [hm, idxOf_givingOrder_lt hi', List.getElem_map]
  have hmle : (m : ℚ) ≤ shares.length := by
    have := List.countP_le_length (p := fun q : Part => decide
      ((part scale shares[i]).remainder ≤ q.remainder)) (l := shares.map (part scale))
    rw [List.length_map] at this
    exact_mod_cast this
  have hsum : (1 - ε - 1 / 2 ^ 29) * m ≤ (shares.map (leftValue scale)).sum := by
    rw [hm, List.countP_map]
    refine mul_countP_le_sum (fun x _ => leftValue_nonneg scale x) fun x _ hx => ?_
    simp only [Function.comp_apply, decide_eq_true_eq] at hx
    have hx : ((part scale shares[i]).remainder : ℚ) ≤ (part scale x).remainder := by
      exact_mod_cast hx
    have hri := (abs_le.1 (abs_remainder_sub_le scale shares[i])).1
    have hrx := (abs_le.1 (abs_remainder_sub_le scale x)).2
    norm_num
    linarith
  have hdiff := (abs_le.1 (abs_sum_leftValue_sub_le hnoise)).2
  have hε₀ : 0 ≤ ε + 1 / 2 ^ 29 := by
    have := leftValue_lt_one scale shares[i]
    have : (0 : ℚ) < 1 / 2 ^ 29 := by norm_num
    linarith
  have hmul := mul_le_mul_of_nonneg_right hmle hε₀
  have hlt : (m : ℚ) < deficit scale shares + 1 := by linarith
  exact hrank.trans_le (Nat.lt_add_one_iff.1 (by exact_mod_cast hlt))

/-- **If hardly anything is left of a share, it is given nothing**: no more is left of all those who
come after it, so those who come before it need all that is missing. -/
theorem deficit_le_idxOf {i : ℕ} {ε : ℚ} (hi : i < shares.length)
    (hε : leftValue scale shares[i] ≤ ε)
    (h : shares.length * (ε + 1 / 2 ^ 29) + noise scale shares < 1)
    (hnoise : noise scale shares < 1) :
    deficit scale shares ≤ (givingOrder (shares.map (part scale))).idxOf i := by
  have hi' : i < (shares.map (part scale)).length := by rwa [List.length_map]
  set m := (shares.map (part scale)).countP
    ((part scale shares[i]).remainder + 1 ≤ ·.remainder) with hm
  have hrank : m ≤ (givingOrder (shares.map (part scale))).idxOf i := by
    rw [← not_lt, hm, idxOf_givingOrder_lt hi', List.getElem_map]
    omega
  have hε₀ : 0 ≤ ε + 1 / 2 ^ 29 := by
    have := leftValue_nonneg scale shares[i]
    have : (0 : ℚ) < 1 / 2 ^ 29 := by norm_num
    linarith
  have hsum : (shares.map (leftValue scale)).sum ≤ m + shares.length * (ε + 1 / 2 ^ 29) := by
    rw [hm, List.countP_map]
    refine sum_le_countP_add hε₀ (fun x _ => (leftValue_lt_one scale x).le) fun x _ hx => ?_
    simp only [Function.comp_apply, decide_eq_true_eq, not_le, Nat.lt_add_one_iff] at hx
    have hx : ((part scale x).remainder : ℚ) ≤ (part scale shares[i]).remainder := by
      exact_mod_cast hx
    have hri := (abs_le.1 (abs_remainder_sub_le scale shares[i])).2
    have hrx := (abs_le.1 (abs_remainder_sub_le scale x)).1
    norm_num
    linarith
  have hdiff := (abs_le.1 (abs_sum_leftValue_sub_le hnoise)).1
  have hlt : (deficit scale shares : ℚ) < m + 1 := by linarith
  exact (Nat.lt_add_one_iff.1 (by exact_mod_cast hlt : deficit scale shares < m + 1)).trans hrank

/-- **A share that is close to a whole number gets it**, however many others have a part of a unit
left. -/
theorem settle_eq_of_close {i k : ℕ} {ε : ℚ} (hi : i < shares.length)
    (hk : |scaledValue scale shares[i] - k| ≤ ε)
    (h : shares.length * (ε + 1 / 2 ^ 29) + noise scale shares < 1)
    (hi' : i < (settle scale.size.toNat (shares.map (part scale))).length) :
    (settle scale.size.toNat (shares.map (part scale)))[i] = k := by
  have hε₀ : 0 ≤ ε := (abs_nonneg _).trans hk
  have hlen : (1 : ℚ) ≤ shares.length := by exact_mod_cast (by omega : 1 ≤ shares.length)
  have hone : ε + 1 / 2 ^ 29 ≤ shares.length * (ε + 1 / 2 ^ 29) :=
    le_mul_of_one_le_left (by positivity) hlen
  have hover : overshoot (scaledValue scale shares[i]) ≤ noise scale shares :=
    overshoot_le_noise (List.getElem_mem hi)
  have hpos : (0 : ℚ) < 1 / 2 ^ 29 := by norm_num
  have hnoise : noise scale shares < 1 := by linarith
  have hfloor := floor_le scale shares[i]
  have hlt := lt_floor_add_one scale shares[i]
  rw [abs_le] at hk
  have hupper : ((part scale shares[i]).floor : ℚ) < k + 1 := by linarith
  have hlower : (k : ℚ) < (part scale shares[i]).floor + 2 := by
    have := overshoot_nonneg (scaledValue_nonneg scale shares[i])
    linarith
  have hupper : (part scale shares[i]).floor < k + 1 := by exact_mod_cast hupper
  have hlower : k < (part scale shares[i]).floor + 2 := by exact_mod_cast hlower
  rw [getElem_settle hnoise hi]
  obtain hcut | hcut : (part scale shares[i]).floor = k ∨ (part scale shares[i]).floor + 1 = k := by
    omega
  · have hleft : leftValue scale shares[i] ≤ ε := by
      rw [leftValue_eq, hcut]
      exact max_le hε₀ hk.2
    rw [if_neg (not_lt.2 (deficit_le_idxOf hi hleft h hnoise)), hcut, add_zero]
  · have hleft : 1 - ε ≤ leftValue scale shares[i] := by
      rw [leftValue_eq]
      refine le_trans ?_ (le_max_right _ _)
      have : ((part scale shares[i]).floor : ℚ) + 1 = k := by exact_mod_cast hcut
      linarith
    rw [if_pos (idxOf_lt_deficit hi hleft h hnoise), hcut]

/-! ## In order -/

/-- Of two parts, the one that comes first and whose remainder is not smaller is given to first. -/
theorem idxOf_lt_idxOf {parts : List Part} {i j : ℕ} (hij : i < j) (hj : j < parts.length)
    (hrem : parts[j].remainder ≤ parts[i].remainder) :
    (givingOrder parts).idxOf i < (givingOrder parts).idxOf j := by
  -- sorting by remainder keeps the two in this order, because it is stable
  have hsorted : [(parts[i], i), (parts[j], j)].Sublist (byLargest parts) :=
    List.pair_sublist_mergeSort largest_trans largest_total (by simpa using hrem)
      (pair_sublist_zipIdx hij (hij.trans hj) hj)
  have horder : [i, j].Sublist (givingOrder parts) := hsorted.map Prod.snd
  exact idxOf_lt_of_sublist (nodup_givingOrder parts) horder

/-- **Of two shares the one that comes first and is not smaller gets no less.** -/
theorem settle_le_settle (h : noise scale shares < 1) {i j : ℕ} (hij : i < j)
    (hj : j < shares.length)
    (hle : scaledValue scale shares[j] ≤ scaledValue scale shares[i])
    (hi' : i < (settle scale.size.toNat (shares.map (part scale))).length)
    (hj' : j < (settle scale.size.toNat (shares.map (part scale))).length) :
    (settle scale.size.toNat (shares.map (part scale)))[j] ≤
      (settle scale.size.toNat (shares.map (part scale)))[i] := by
  have hfloor := floor_le_floor hle
  rw [getElem_settle h hj, getElem_settle h (hij.trans hj)]
  rcases hfloor.lt_or_eq with hlt | heq
  · split <;> split <;> omega
  · have hj' : j < (shares.map (part scale)).length := by rwa [List.length_map]
    have hfirst := idxOf_lt_idxOf hij hj' (by
      rw [List.getElem_map, List.getElem_map]
      exact remainder_le_remainder hle heq)
    split <;> split <;> omega

/-! ## No unit is better placed elsewhere -/

/-- The larger remainder is given to first. -/
theorem idxOf_lt_idxOf_of_lt {parts : List Part} {i j : ℕ} (hi : i < parts.length)
    (hj : j < parts.length) (hrem : parts[j].remainder < parts[i].remainder) :
    (givingOrder parts).idxOf i < (givingOrder parts).idxOf j :=
  ((idxOf_givingOrder_lt hi).2 le_rfl).trans_le
    (not_lt.1 fun h => absurd ((idxOf_givingOrder_lt hj).1 h) (not_le.2 hrem))

/-- **A unit that one share is above its count is not better placed there**: another share is not
below its own by what is missing to a unit, or hardly so. -/
theorem sub_settle_le_sub_settle (h : noise scale shares < 1) {i j : ℕ} (hi : i < shares.length)
    (hj : j < shares.length)
    (hi' : i < (settle scale.size.toNat (shares.map (part scale))).length)
    (hj' : j < (settle scale.size.toNat (shares.map (part scale))).length) :
    scaledValue scale shares[i] - (settle scale.size.toNat (shares.map (part scale)))[i] ≤
      scaledValue scale shares[j] - (settle scale.size.toNat (shares.map (part scale)))[j] + 1 +
        (overshoot (scaledValue scale shares[j]) + 1 / 2 ^ 28) := by
  by_contra hlt
  rw [not_le, getElem_settle h hi, getElem_settle h hj] at hlt
  have hfloor := floor_le scale shares[j]
  have hcut := lt_floor_add_one scale shares[i]
  have hsmall : (0 : ℚ) < 1 / 2 ^ 28 := by norm_num
  have hover := overshoot_nonneg (scaledValue_nonneg scale shares[j])
  -- the first one is not given to, and the second one is, or they are a unit apart at most
  by_cases hgiven : (givingOrder (shares.map (part scale))).idxOf i < deficit scale shares
  · rw [if_pos hgiven] at hlt
    push_cast at hlt
    split at hlt <;> linarith
  by_cases hgiven' : (givingOrder (shares.map (part scale))).idxOf j < deficit scale shares
  · rw [if_neg hgiven, if_pos hgiven'] at hlt
    push_cast at hlt
    have hleft : leftValue scale shares[j] + 1 / 2 ^ 28 ≤ leftValue scale shares[i] := by
      have hi := le_max_right 0 (scaledValue scale shares[i] - (part scale shares[i]).floor)
      rw [leftValue_eq, leftValue_eq, ← le_sub_iff_add_le]
      exact max_le (by linarith) (by linarith)
    have hrem : (part scale shares[j]).remainder < (part scale shares[i]).remainder := by
      have hri := (abs_le.1 (abs_remainder_sub_le scale shares[i])).1
      have hrj := (abs_le.1 (abs_remainder_sub_le scale shares[j])).2
      norm_num at hleft
      have : ((part scale shares[j]).remainder : ℚ) < (part scale shares[i]).remainder := by
        linarith
      exact_mod_cast this
    have hi'' : i < (shares.map (part scale)).length := by rwa [List.length_map]
    have hj'' : j < (shares.map (part scale)).length := by rwa [List.length_map]
    have horder := idxOf_lt_idxOf_of_lt hi'' hj'' (by rwa [List.getElem_map, List.getElem_map])
    exact hgiven (horder.trans hgiven')
  · rw [if_neg hgiven, if_neg hgiven'] at hlt
    push_cast at hlt
    linarith

end

end TierBudget.Apportionment
