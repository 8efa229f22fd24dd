import TierBudget.Proofs.Apportionment.Cut
import TierBudget.Proofs.Apportionment.Turns
/-!
# Whole counts come back

Shares that lie within a unit of whole counts are apportioned to those counts, unless one is so far
above its count and another so far below that the unit goes the other way (`settle_of_between`). A
share below its count is cut one too low, and then more is left over of it than of a share that is at
or above its count (`part_of_between`). The missing units are as many as there are shares of the
first kind, so they go to exactly those (`settle_of_gap`). Shares close to whole counts are the case
that earlier results rest on (`settle_of_close`).
-/

namespace TierBudget.Apportionment

open Binary64

/-! ## The largest remainders -/

/-- The first members of a list that starts with all those of a kind. -/
theorem take_countP_eq_filter {α : Type} {p : α → Bool} :
    ∀ {l : List α}, l.Pairwise (fun a b => p b → p a) → l.take (l.countP p) = l.filter p
  | [], _ => rfl
  | a :: l, h => by
    rw [List.pairwise_cons] at h
    by_cases ha : p a
    · rw [List.countP_cons_of_pos ha, List.take_succ_cons, take_countP_eq_filter h.2,
        List.filter_cons_of_pos ha]
    · have hnone : ∀ b ∈ l, ¬ p b := fun b hb hpb => ha (h.1 b hb hpb)
      rw [List.countP_cons_of_neg ha, List.countP_eq_zero.2 hnone, List.filter_cons_of_neg ha,
        List.filter_eq_nil_iff.2 hnone, List.take_zero]

theorem largest_trans (a b c : Part × ℕ) (hab : decide (b.1.remainder ≤ a.1.remainder))
    (hbc : decide (c.1.remainder ≤ b.1.remainder)) : decide (c.1.remainder ≤ a.1.remainder) := by
  simp only [decide_eq_true_eq] at *
  omega

theorem largest_total (a b : Part × ℕ) :
    decide (b.1.remainder ≤ a.1.remainder) || decide (a.1.remainder ≤ b.1.remainder) := by
  simp only [Bool.or_eq_true, decide_eq_true_eq]
  omega

theorem pairwise_byLargest (parts : List Part) :
    (byLargest parts).Pairwise fun a b => b.1.remainder ≤ a.1.remainder :=
  (List.pairwise_mergeSort largest_trans largest_total parts.zipIdx).imp fun hab => by
    simpa using hab

/-- Whose turn comes within as many units as there are remainders from `b` on. -/
theorem idxOf_givingOrder_lt {parts : List Part} {b i : ℕ} (hi : i < parts.length) :
    (givingOrder parts).idxOf i < parts.countP (b ≤ ·.remainder) ↔ b ≤ parts[i].remainder := by
  have hcount : parts.countP (b ≤ ·.remainder) =
      (byLargest parts).countP fun x => b ≤ x.1.remainder := by
    rw [(byLargest_perm parts).countP_eq]
    conv_lhs => rw [← List.zipIdx_map_fst 0 parts, List.countP_map]
    rfl
  rw [← List.mem_take_iff_idxOf_lt (mem_givingOrder.2 hi), givingOrder, hcount, ← List.map_take,
    take_countP_eq_filter ((pairwise_byLargest parts).imp fun hab => by
      simp only [decide_eq_true_eq]
      omega)]
  constructor
  · intro hmem
    obtain ⟨x, hx, rfl⟩ := List.mem_map.1 hmem
    obtain ⟨hx, hb⟩ := List.mem_filter.1 hx
    obtain ⟨_, heq⟩ := List.mem_zipIdx' ((byLargest_perm parts).subset hx)
    simpa [← heq] using hb
  · intro hb
    have hmem : (parts[i], i) ∈ byLargest parts :=
      (byLargest_perm parts).mem_iff.2 (List.mem_iff_getElem.2 ⟨i, by simpa using hi, by simp⟩)
    exact List.mem_map.2 ⟨_, List.mem_filter.2 ⟨hmem, by simpa using hb⟩, rfl⟩

/-- **What is missing goes to the largest remainders**, if it is one unit for each of them. -/
theorem settle_of_gap (parts : List Part) (b : ℕ) :
    settle (assigned parts + parts.countP (b ≤ ·.remainder)) parts =
      parts.map fun p => p.floor + if b ≤ p.remainder then 1 else 0 := by
  rw [settle, if_pos (Nat.le_add_right _ _), Nat.add_sub_cancel_left]
  refine List.ext_getElem (by simp) fun i h _ => ?_
  rw [length_handOut] at h
  rw [List.getElem_map, getElem_handOut_of_le List.countP_le_length h]
  simp only [idxOf_givingOrder_lt h]

/-! ## Shares within a unit of whole counts -/

section

variable {scale : Scale} {share : Float} {c : ℕ} {τ : ℚ}

/-- The cut is the count or one less. -/
theorem part_floor_of_between (hlow : (c : ℚ) < scaledValue scale share + 1)
    (hhigh : scaledValue scale share + overshoot (scaledValue scale share) < c + 1) :
    (part scale share).floor = c ∨ (part scale share).floor + 1 = c := by
  have hfloor := floor_le scale share
  have hlt := lt_floor_add_one scale share
  have hupper : ((part scale share).floor : ℚ) < c + 1 := by linarith
  have hlower : (c : ℚ) < (part scale share).floor + 2 := by linarith
  have hupper : (part scale share).floor < c + 1 := by exact_mod_cast hupper
  have hlower : c < (part scale share).floor + 2 := by exact_mod_cast hlower
  omega

/-- **What is left over of a share tells how it was cut**, if the share is at most `τ` above its
count and less than `1 - τ` below it. -/
theorem part_of_between (hτ : 0 ≤ τ)
    (hlow : (c : ℚ) + τ + 1 / 2 ^ 28 ≤ scaledValue scale share + 1)
    (hτ' : scaledValue scale share ≤ c + τ)
    (hhigh : scaledValue scale share + overshoot (scaledValue scale share) < c + 1) :
    (part scale share).floor = c ∧ (part scale share).remainder < ⌊τ * 1000000000⌋₊ + 2 ∨
      (part scale share).floor + 1 = c ∧
        ⌊τ * 1000000000⌋₊ + 2 ≤ (part scale share).remainder := by
  have hrem := abs_le.1 (abs_remainder_sub_le scale share)
  have hbound := Nat.floor_le (mul_nonneg hτ (show (0 : ℚ) ≤ 1000000000 by norm_num))
  have hbound' := Nat.lt_floor_add_one (τ * 1000000000)
  have hunit : (c : ℚ) < scaledValue scale share + 1 := by
    have : (0 : ℚ) < 1 / 2 ^ 28 := by norm_num
    linarith
  refine (part_floor_of_between hunit hhigh).imp (fun hfloor => ⟨hfloor, ?_⟩)
    fun hfloor => ⟨hfloor, ?_⟩
  · have hle : leftValue scale share ≤ τ := by
      rw [leftValue_eq, hfloor]
      exact max_le hτ (by linarith)
    have hlt : ((part scale share).remainder : ℚ) < ⌊τ * 1000000000⌋₊ + 2 := by linarith
    exact_mod_cast hlt
  · have hge : τ + 1 / 2 ^ 28 ≤ leftValue scale share := by
      rw [leftValue_eq]
      refine le_trans ?_ (le_max_right _ _)
      have : ((part scale share).floor : ℚ) + 1 = c := by exact_mod_cast hfloor
      linarith
    have hle : (⌊τ * 1000000000⌋₊ : ℚ) + 2 ≤ (part scale share).remainder := by
      norm_num at hge
      linarith
    exact_mod_cast hle

end

section

variable {α : Type} {scale : Scale} {l : List α} {share : α → Float} {count : α → ℕ}

/-- **Counts that add up are what their shares are apportioned to**, if no share is so far above its
count that another one, further below its own, would give the unit away. -/
theorem settle_of_between {τ : ℚ} (hτ : 0 ≤ τ)
    (hlow : ∀ a ∈ l, (count a : ℚ) + τ + 1 / 2 ^ 28 ≤ scaledValue scale (share a) + 1)
    (hτ' : ∀ a ∈ l, scaledValue scale (share a) ≤ count a + τ)
    (hhigh : ∀ a ∈ l,
      scaledValue scale (share a) + overshoot (scaledValue scale (share a)) < count a + 1)
    (hsum : (l.map count).sum = scale.size.toNat) :
    settle scale.size.toNat ((l.map share).map (part scale)) = l.map count := by
  set parts := (l.map share).map (part scale) with hparts
  set b := ⌊τ * 1000000000⌋₊ + 2 with hb
  have hcount : (parts.map fun p => p.floor + if b ≤ p.remainder then 1 else 0) =
      l.map count := by
    rw [hparts, List.map_map, List.map_map]
    refine List.map_congr_left fun a ha => ?_
    obtain ⟨hfloor, hrem⟩ | ⟨hfloor, hrem⟩ :=
      part_of_between hτ (hlow a ha) (hτ' a ha) (hhigh a ha)
    · simp [hfloor, hb, Nat.not_le.2 hrem]
    · simp [hfloor, hb, hrem]
  have htotal : scale.size.toNat = assigned parts + parts.countP (b ≤ ·.remainder) := by
    have := sum_map_add_ite parts Part.floor (fun p => decide (b ≤ p.remainder))
    simp only [decide_eq_true_eq] at this
    rw [hcount, hsum] at this
    exact this
  rw [htotal, settle_of_gap, hcount]

/-- **Whole counts are recovered** from shares that lie close to them, if they add up. -/
theorem settle_of_close (h : ∀ a ∈ l, |scaledValue scale (share a) - count a| ≤ 6 / 25)
    (hsum : (l.map count).sum = scale.size.toNat) :
    settle scale.size.toNat ((l.map share).map (part scale)) = l.map count := by
  have hover (a : α) := overshoot_scaledValue_le scale (share a)
  refine settle_of_between (τ := 6 / 25) (by norm_num) (fun a ha => ?_) (fun a ha => ?_)
    (fun a ha => ?_) hsum
  · have := (abs_le.1 (h a ha)).1
    norm_num
    linarith
  · have := (abs_le.1 (h a ha)).2
    linarith
  · have := (abs_le.1 (h a ha)).2
    have := hover a
    linarith

end

end TierBudget.Apportionment
