import TierBudget.Proofs.Apportionment.Turns
/-!
# Ranks

Whose turn it is, by counting. Sorting by remainder is stable, so the parts are in the order of their
remainders and, where these are equal, of their positions (`pairwise_mergeSort_zipIdx`). The place of
a part in such an order is the number of parts that come before it (`idxOf_map_eq_countP`). So a part
is given one more unit if fewer parts than there are units come before it (`handOut_eq`), and it is
lowered once more if it has a unit left and fewer of those that have one come before it
(`takeBack_eq`).
-/

namespace TierBudget.Apportionment

/-! ## Stable orders -/

/-- In a list that is sorted by a strict relation, the place of a member is the number of members
that come before it. -/
theorem idxOf_map_eq_countP {α : Type} {f : α → ℕ} {R : α → α → Bool}
    (hasymm : ∀ a b, R a b → ¬ R b a) {l : List α} (hsorted : l.Pairwise (R · ·))
    (hnodup : (l.map f).Nodup) {x : α} (hx : x ∈ l) : (l.map f).idxOf (f x) = l.countP (R · x) := by
  induction l with
  | nil => cases hx
  | cons a l ih =>
    rw [List.pairwise_cons] at hsorted
    rw [List.map_cons, List.nodup_cons] at hnodup
    rw [List.map_cons, List.idxOf_cons]
    rcases List.mem_cons.1 hx with rfl | hx
    · have hnone : l.countP (R · x) = 0 :=
        List.countP_eq_zero.2 fun b hb => hasymm x b (hsorted.1 b hb)
      have hself : ¬ R x x := fun h => hasymm x x h h
      rw [List.countP_cons, hnone, if_neg hself, BEq.rfl, cond_true]
    · have hne : f a ≠ f x := fun heq => hnodup.1 (heq ▸ List.mem_map_of_mem hx)
      rw [List.countP_cons, if_pos (hsorted.1 x hx), beq_eq_false_iff_ne.2 hne, cond_false,
        ih hsorted.2 hnodup.2 hx]

/-- In a list without repetitions, what stands before is found before. -/
theorem idxOf_lt_of_sublist {l : List ℕ} (hl : l.Nodup) {a b : ℕ} (h : [a, b].Sublist l) :
    l.idxOf a < l.idxOf b := by
  obtain ⟨is, hmap, hlt⟩ := List.sublist_eq_map_getElem h
  obtain ⟨i, j, rfl⟩ := List.length_eq_two.1 (by simpa using (congrArg List.length hmap).symm)
  obtain ⟨rfl, rfl⟩ : a = l[i] ∧ b = l[j] := by simpa using hmap
  have hij : i < j := by simpa using hlt
  change l.idxOf l[(i : ℕ)] < l.idxOf l[(j : ℕ)]
  rw [hl.idxOf_getElem i i.isLt, hl.idxOf_getElem j j.isLt]
  exact hij

variable {parts : List Part}

/-- Two parts in the order of their positions. -/
theorem pair_sublist_zipIdx {i j : ℕ} (hij : i < j) (hi : i < parts.length)
    (hj : j < parts.length) : [(parts[i], i), (parts[j], j)].Sublist parts.zipIdx := by
  have hpair : [(⟨i, by simpa using hi⟩ : Fin parts.zipIdx.length),
      ⟨j, by simpa using hj⟩].Pairwise (· < ·) := by simpa using hij
  simpa using List.map_getElem_sublist hpair

/-- **Sorting is stable**: what is equal stays in the order of the positions. -/
theorem pairwise_mergeSort_zipIdx {r : Part → Part → Bool}
    (htrans : ∀ a b c, r a b → r b c → r a c) (htotal : ∀ a b, r a b || r b a)
    (parts : List Part) :
    (parts.zipIdx.mergeSort fun a b => r a.1 b.1).Pairwise fun a b =>
      r a.1 b.1 ∧ (r b.1 a.1 → a.2 < b.2) := by
  have htrans' (a b c : Part × ℕ) : r a.1 b.1 → r b.1 c.1 → r a.1 c.1 := htrans _ _ _
  have htotal' (a b : Part × ℕ) : r a.1 b.1 || r b.1 a.1 := htotal _ _
  have hperm := List.mergeSort_perm parts.zipIdx fun a b => r a.1 b.1
  set sorted := parts.zipIdx.mergeSort fun a b => r a.1 b.1
  have hnodup : (sorted.map (·.2)).Nodup := (hperm.map _).nodup_iff.2 nodup_map_snd_zipIdx
  refine List.pairwise_iff_forall_sublist.2 fun {a b} hab =>
    ⟨List.pairwise_iff_forall_sublist.1 (List.pairwise_mergeSort htrans' htotal' _) hab, fun hba => ?_⟩
  have hfirst := idxOf_lt_of_sublist hnodup (hab.map Prod.snd)
  by_contra hlt
  have hne : a.2 ≠ b.2 := fun heq => by
    rw [heq] at hfirst
    exact lt_irrefl _ hfirst
  have hmem : a ∈ sorted ∧ b ∈ sorted := by simpa using hab.subset
  obtain ⟨ha, haeq⟩ := List.mem_zipIdx' (hperm.subset hmem.1)
  obtain ⟨hb, hbeq⟩ := List.mem_zipIdx' (hperm.subset hmem.2)
  have hpair : [b, a].Sublist parts.zipIdx := by
    have hpair := pair_sublist_zipIdx (show b.2 < a.2 by omega) hb ha
    rwa [← haeq, ← hbeq] at hpair
  -- the two would stand in both orders
  have hback : [b, a].Sublist sorted := List.pair_sublist_mergeSort htrans' htotal' hba hpair
  have hlast := idxOf_lt_of_sublist hnodup (hback.map Prod.snd)
  exact lt_asymm hfirst hlast

/-! ## Handing out -/

/-- Whether a part is given to before another: its remainder is larger, or the same and it stands
before. -/
def GivenBefore (y x : Part × ℕ) : Prop :=
  x.1.remainder < y.1.remainder ∨ y.1.remainder = x.1.remainder ∧ y.2 < x.2

instance : DecidableRel GivenBefore := fun _ _ => inferInstanceAs (Decidable (_ ∨ _))

theorem GivenBefore.asymm {x y : Part × ℕ} (h : GivenBefore y x) : ¬ GivenBefore x y := by
  unfold GivenBefore at *
  omega

theorem pairwise_byLargest_givenBefore (parts : List Part) :
    (byLargest parts).Pairwise GivenBefore := by
  refine (pairwise_mergeSort_zipIdx (r := fun a b => b.remainder ≤ a.remainder)
    (fun a b c => ?_) (fun a b => ?_) parts).imp fun {a b} hab => ?_
  · simp only [decide_eq_true_eq]
    omega
  · simp only [Bool.or_eq_true, decide_eq_true_eq]
    omega
  · simp only [decide_eq_true_eq] at hab
    unfold GivenBefore
    omega

/-- **The place in the giving order** is the number of parts that are given to before. -/
theorem idxOf_givingOrder {x : Part × ℕ} (hx : x ∈ parts.zipIdx) :
    (givingOrder parts).idxOf x.2 = parts.zipIdx.countP (GivenBefore · x) := by
  rw [← (byLargest_perm parts).countP_eq]
  exact idxOf_map_eq_countP (R := fun a b => GivenBefore a b)
    (fun a b hab hba => (of_decide_eq_true hab).asymm (of_decide_eq_true hba))
    ((pairwise_byLargest_givenBefore parts).imp decide_eq_true) (nodup_givingOrder parts)
    ((byLargest_perm parts).mem_iff.2 hx)

/-- **Handing out by rank**: whole rounds, and the units of the last one to those with the fewest
before them. -/
theorem handOut_eq (parts : List Part) (d : ℕ) :
    handOut parts d = parts.zipIdx.map fun x => x.1.floor + d / parts.length +
      if parts.zipIdx.countP (GivenBefore · x) < d % parts.length then 1 else 0 := by
  refine List.ext_getElem (by simp) fun i h _ => ?_
  rw [length_handOut] at h
  rw [getElem_handOut h, List.getElem_map, List.getElem_zipIdx, Nat.zero_add, Nat.add_assoc]
  have hmem : (parts[i], i) ∈ parts.zipIdx :=
    List.mk_mem_zipIdx_iff_getElem?.2 (List.getElem?_eq_getElem h)
  simp only [idxOf_givingOrder hmem]

/-! ## Taking back -/

/-- Whether a part is taken from before another: its remainder is smaller, or the same and it stands
before. -/
def TakenBefore (y x : Part × ℕ) : Prop :=
  y.1.remainder < x.1.remainder ∨ y.1.remainder = x.1.remainder ∧ y.2 < x.2

instance : DecidableRel TakenBefore := fun _ _ => inferInstanceAs (Decidable (_ ∨ _))

theorem TakenBefore.asymm {x y : Part × ℕ} (h : TakenBefore y x) : ¬ TakenBefore x y := by
  unfold TakenBefore at *
  omega

theorem pairwise_bySmallest_takenBefore (parts : List Part) :
    (bySmallest parts).Pairwise TakenBefore := by
  refine (pairwise_mergeSort_zipIdx (r := fun a b => a.remainder ≤ b.remainder)
    (fun a b c => ?_) (fun a b => ?_) parts).imp fun {a b} hab => ?_
  · simp only [decide_eq_true_eq]
    omega
  · simp only [Bool.or_eq_true, decide_eq_true_eq]
    omega
  · simp only [decide_eq_true_eq] at hab
    unfold TakenBefore
    omega

/-- The place among those that have a unit left after `l` rounds. -/
theorem idxOf_payers {l : ℕ} {x : Part × ℕ} (hx : x ∈ parts.zipIdx) (hl : l < x.1.floor) :
    (((bySmallest parts).filter fun y => l < y.1.floor).map (·.2)).idxOf x.2 =
      parts.zipIdx.countP fun y => l < y.1.floor ∧ TakenBefore y x := by
  have hsub : ((bySmallest parts).filter fun y => l < y.1.floor).Sublist (bySmallest parts) :=
    List.filter_sublist
  rw [← (bySmallest_perm parts).countP_eq]
  refine (idxOf_map_eq_countP (R := fun a b => TakenBefore a b)
    (fun a b hab hba => (of_decide_eq_true hab).asymm (of_decide_eq_true hba))
    (((pairwise_bySmallest_takenBefore parts).imp decide_eq_true).sublist hsub)
    ((hsub.map _).nodup (nodup_takingOrder parts))
    (List.mem_filter.2 ⟨(bySmallest_perm parts).mem_iff.2 hx, decide_eq_true hl⟩)).trans ?_
  rw [List.countP_filter]
  refine List.countP_congr fun y _ => ?_
  simp only [Bool.and_eq_true, decide_eq_true_eq, and_comm]

/-- **Taking back by rank**: whole rounds as far as there are units, and the units of the last one
from those that have any and the fewest before them. -/
theorem takeBack_eq (parts : List Part) (surplus : ℕ) :
    takeBack parts surplus = parts.zipIdx.map fun x => x.1.floor - level parts surplus -
      if level parts surplus < x.1.floor ∧ (parts.zipIdx.countP fun y =>
        level parts surplus < y.1.floor ∧ TakenBefore y x) <
          surplus - drained parts (level parts surplus) then 1 else 0 := by
  rw [takeBack]
  refine List.map_congr_left fun x hx => ?_
  simp only [List.contains_iff_mem, List.map_take]
  congr 2
  rw [eq_iff_iff]
  by_cases hl : level parts surplus < x.1.floor
  · have hmem : x.2 ∈ ((bySmallest parts).filter fun y => level parts surplus < y.1.floor).map
        (·.2) :=
      List.mem_map_of_mem
        (List.mem_filter.2 ⟨(bySmallest_perm parts).mem_iff.2 hx, decide_eq_true hl⟩)
    rw [List.mem_take_iff_idxOf_lt hmem, idxOf_payers hx hl, and_iff_right hl]
  · refine iff_of_false (fun hmem => ?_) fun h => hl h.1
    obtain ⟨y, hy, hyx⟩ := List.mem_map.1 (List.mem_of_mem_take hmem)
    obtain ⟨hy, hfloor⟩ := List.mem_filter.1 hy
    obtain rfl : y = x := List.inj_on_of_nodup_map nodup_map_snd_zipIdx
      ((bySmallest_perm parts).subset hy) hx hyx
    exact hl (of_decide_eq_true hfloor)

end TierBudget.Apportionment
