import Mathlib.Algebra.Order.BigOperators.Group.List
import Mathlib.Data.List.GetD
import TierBudget.Proofs.Apportionment.Sum
/-!
# Who gets a unit, and who loses one

Position by position, what the closed forms of apportionment give. Handing out, a part gets a unit
in every round and one more if its turn has come in the last (`getElem_handOut`), so that one more
unit goes to the next position of the order (`handOut_succ`). Taking back cuts the floors off at a
level (`cutOff`) and lowers the first of those who can still pay (`takeBack_eq_lower`); a whole
round is one level more (`lower_payers_cutOff`), and the level is determined by its bracket
(`level_eq`).
-/

namespace TierBudget.Apportionment

variable {parts : List Part}

/-! ## Orders -/

/-- The positions of the parts in the order in which units are given. -/
def givingOrder (parts : List Part) : List ℕ := (byLargest parts).map (·.2)

/-- The positions of the parts in the order in which units are taken. -/
def takingOrder (parts : List Part) : List ℕ := (bySmallest parts).map (·.2)

theorem givingOrder_perm (parts : List Part) :
    (givingOrder parts).Perm (List.range parts.length) := by
  have h := (byLargest_perm parts).map (·.2)
  rwa [List.zipIdx_map_snd, ← List.range_eq_range'] at h

theorem takingOrder_perm (parts : List Part) :
    (takingOrder parts).Perm (List.range parts.length) := by
  have h := (bySmallest_perm parts).map (·.2)
  rwa [List.zipIdx_map_snd, ← List.range_eq_range'] at h

theorem nodup_givingOrder (parts : List Part) : (givingOrder parts).Nodup :=
  (givingOrder_perm parts).nodup_iff.2 List.nodup_range

theorem nodup_takingOrder (parts : List Part) : (takingOrder parts).Nodup :=
  (takingOrder_perm parts).nodup_iff.2 List.nodup_range

@[simp] theorem length_givingOrder (parts : List Part) :
    (givingOrder parts).length = parts.length := by
  rw [(givingOrder_perm parts).length_eq, List.length_range]

theorem mem_givingOrder {i : ℕ} : i ∈ givingOrder parts ↔ i < parts.length := by
  rw [(givingOrder_perm parts).mem_iff, List.mem_range]

theorem mem_takingOrder {i : ℕ} : i ∈ takingOrder parts ↔ i < parts.length := by
  rw [(takingOrder_perm parts).mem_iff, List.mem_range]

/-! ## Handing out -/

/-- A part gets a unit in every round, and one more if its turn has come in the last. -/
theorem getElem_handOut {d i : ℕ} (hi : i < parts.length) (h : i < (handOut parts d).length) :
    (handOut parts d)[i] = parts[i].floor +
      (d / parts.length + if (givingOrder parts).idxOf i < d % parts.length then 1 else 0) := by
  have hmem := List.mem_take_iff_idxOf_lt (n := d % parts.length) (mem_givingOrder.2 hi)
  have hget : (handOut parts d)[i] = parts[i].floor + d / parts.length +
      if ((givingOrder parts).take (d % parts.length)).contains i then 1 else 0 := by
    simp [handOut, givingOrder]
  rw [hget, Nat.add_assoc]
  simp only [List.contains_iff_mem, hmem]

/-- Handing out no more units than there are parts takes one round at most. -/
theorem getElem_handOut_of_le {d i : ℕ} (hd : d ≤ parts.length) (hi : i < parts.length)
    (h : i < (handOut parts d).length) :
    (handOut parts d)[i] =
      parts[i].floor + if (givingOrder parts).idxOf i < d then 1 else 0 := by
  rw [getElem_handOut hi]
  congr 1
  rcases hd.eq_or_lt with rfl | hlt
  · have hrank : (givingOrder parts).idxOf i < parts.length := by
      simpa using List.idxOf_lt_length_iff.2 (mem_givingOrder.2 hi)
    rw [Nat.div_self (i.zero_le.trans_lt hi), Nat.mod_self, if_neg (Nat.not_lt_zero _), if_pos hrank]
  · rw [Nat.div_eq_of_lt hlt, Nat.mod_eq_of_lt hlt, Nat.zero_add]

theorem handOut_zero (parts : List Part) : handOut parts 0 = parts.map Part.floor := by
  refine List.ext_getElem (by simp) fun i h _ => ?_
  rw [length_handOut] at h
  simp [getElem_handOut h]

/-- One more turn, counted by rounds. -/
theorem turns_succ {n d r : ℕ} (hr : r < n) :
    (d + 1) / n + (if r < (d + 1) % n then 1 else 0) =
      d / n + (if r < d % n then 1 else 0) + if r = d % n then 1 else 0 := by
  have hn : 0 < n := r.zero_le.trans_lt hr
  have hd := Nat.div_add_mod d n
  rcases Nat.lt_or_ge (d % n + 1) n with hlt | hge
  · have hdiv : (d + 1) / n = d / n ∧ (d + 1) % n = d % n + 1 :=
      (Nat.div_mod_unique hn).2 ⟨by omega, hlt⟩
    rw [hdiv.1, hdiv.2]
    split <;> split <;> split <;> omega
  · have hmod := Nat.mod_lt d hn
    have hdiv : (d + 1) / n = d / n + 1 ∧ (d + 1) % n = 0 :=
      (Nat.div_mod_unique hn).2 ⟨by rw [Nat.mul_add]; omega, hn⟩
    rw [hdiv.1, hdiv.2]
    split <;> split <;> split <;> omega

/-- **One turn of handing out**: the next unit goes to the next position of the order. -/
theorem handOut_succ {d i : ℕ} (hi : i < parts.length)
    (hturn : (givingOrder parts).idxOf i = d % parts.length) (h : i < (handOut parts d).length) :
    handOut parts (d + 1) = (handOut parts d).set i ((handOut parts d)[i] + 1) := by
  refine List.ext_getElem (by simp) fun j h _ => ?_
  rw [length_handOut] at h
  have hrank : (givingOrder parts).idxOf j < parts.length := by
    simpa using List.idxOf_lt_length_iff.2 (mem_givingOrder.2 h)
  have hsame : i = j ↔ (givingOrder parts).idxOf j = d % parts.length := by
    rw [← hturn]
    exact ⟨fun he => he ▸ rfl, fun he => (List.idxOf_inj (mem_givingOrder.2 hi)).1 he.symm⟩
  simp only [List.getElem_set, getElem_handOut h, getElem_handOut hi, turns_succ hrank]
  by_cases hij : i = j
  · subst hij
    rw [if_pos rfl, if_pos hturn]
    omega
  · rw [if_neg hij, if_neg (mt hsame.2 hij)]
    omega

/-! ## Lowering -/

/-- One unit less at the chosen positions. -/
def lower (chosen : List ℕ) (ns : List ℕ) : List ℕ :=
  ns.mapIdx fun i n => n - if chosen.contains i then 1 else 0

@[simp] theorem length_lower (chosen ns : List ℕ) : (lower chosen ns).length = ns.length := by
  simp [lower]

theorem getElem_lower {chosen ns : List ℕ} {i : ℕ} (hi : i < ns.length)
    (h : i < (lower chosen ns).length) :
    (lower chosen ns)[i] = ns[i] - if i ∈ chosen then 1 else 0 := by
  simp [lower]

theorem lower_nil (ns : List ℕ) : lower [] ns = ns :=
  List.ext_getElem (by simp) fun i h _ => by
    rw [length_lower] at h
    simp [getElem_lower h]

theorem lower_cons {i : ℕ} {chosen ns : List ℕ} (hi : i < ns.length) (hn : i ∉ chosen) :
    lower (i :: chosen) ns = lower chosen (ns.set i (ns[i] - 1)) := by
  refine List.ext_getElem (by simp) fun j h _ => ?_
  rw [length_lower] at h
  rw [getElem_lower h, getElem_lower (by simpa using h), List.getElem_set]
  by_cases hj : i = j
  · subst hj
    simp [hn]
  · simp [hj, Ne.symm hj]

/-- The positions of the order that have a unit left. -/
def payers (order ns : List ℕ) : List ℕ := order.filter fun i => 0 < ns.getD i 0

theorem payers_cons {i : ℕ} {order ns : List ℕ} (hi : i < ns.length) :
    payers (i :: order) ns = if 0 < ns[i] then i :: payers order ns else payers order ns := by
  simp only [payers, List.filter_cons, List.getD_eq_getElem _ _ hi, decide_eq_true_eq]

/-- Who pays does not depend on the counts elsewhere. -/
theorem payers_set {i n : ℕ} {order ns : List ℕ} (hi : i ∉ order) :
    payers order (ns.set i n) = payers order ns :=
  List.filter_congr fun j hj => by
    have hne : i ≠ j := fun he => hi (he ▸ hj)
    rw [List.getD_eq_getElem?_getD, List.getElem?_set_ne hne, ← List.getD_eq_getElem?_getD]

/-! ## Taking back -/

/-- The floors after `level` rounds. -/
def cutOff (parts : List Part) (level : ℕ) : List ℕ := parts.map fun p => p.floor - level

@[simp] theorem length_cutOff (parts : List Part) (level : ℕ) :
    (cutOff parts level).length = parts.length := by simp [cutOff]

theorem getElem_cutOff {level i : ℕ} (hi : i < parts.length)
    (h : i < (cutOff parts level).length) :
    (cutOff parts level)[i] = parts[i].floor - level := by simp [cutOff]

/-- Who pays in a round is read off the floors. -/
theorem payers_cutOff (parts : List Part) (level : ℕ) :
    payers (takingOrder parts) (cutOff parts level) =
      ((bySmallest parts).filter fun p => level < p.1.floor).map (·.2) := by
  rw [payers, takingOrder, List.filter_map]
  congr 1
  refine List.filter_congr fun x hx => ?_
  have hx := (bySmallest_perm parts).subset hx
  obtain ⟨hlt, heq⟩ := List.mem_zipIdx' hx
  have hlen : x.2 < (cutOff parts level).length := by simpa using hlt
  rw [Function.comp_apply, List.getD_eq_getElem _ _ hlen, getElem_cutOff hlt, ← heq]
  simp only [Nat.sub_pos_iff_lt]

theorem length_payers_cutOff (parts : List Part) (level : ℕ) :
    (payers (takingOrder parts) (cutOff parts level)).length = parts.countP (level < ·.floor) := by
  rw [payers_cutOff, List.length_map, countP_filter_bySmallest]

theorem takeBack_eq_lower (parts : List Part) (surplus : ℕ) :
    takeBack parts surplus =
      lower ((payers (takingOrder parts) (cutOff parts (level parts surplus))).take
        (surplus - drained parts (level parts surplus))) (cutOff parts (level parts surplus)) := by
  rw [payers_cutOff, ← List.map_take]
  refine List.ext_getElem (by simp) fun i h _ => ?_
  rw [length_takeBack] at h
  rw [getElem_lower (by simpa using h), getElem_cutOff h]
  simp [takeBack]

/-- A whole round is one level more. -/
theorem lower_payers_cutOff (parts : List Part) (level : ℕ) :
    lower (payers (takingOrder parts) (cutOff parts level)) (cutOff parts level) =
      cutOff parts (level + 1) := by
  refine List.ext_getElem (by simp) fun i h _ => ?_
  rw [length_lower, length_cutOff] at h
  have hlen : i < (cutOff parts level).length := by simpa using h
  have hpays : i ∈ payers (takingOrder parts) (cutOff parts level) ↔ level < parts[i].floor := by
    rw [payers, List.mem_filter, List.getD_eq_getElem _ _ hlen, getElem_cutOff h, mem_takingOrder]
    simp only [h, Nat.sub_pos_iff_lt, decide_eq_true_eq, true_and]
  rw [getElem_lower hlen, getElem_cutOff h, getElem_cutOff h]
  simp only [hpays]
  split <;> omega

theorem drained_mono (parts : List Part) : Monotone (drained parts) :=
  monotone_nat_of_le_succ fun level => by
    rw [drained_succ]
    exact Nat.le_add_right _ _

/-- The bracket has one level. -/
theorem level_eq {surplus l : ℕ} (h : surplus < assigned parts)
    (hfloor : ∀ p ∈ parts, p.floor ≤ 2 ^ 32) (hle : drained parts l ≤ surplus)
    (hlt : surplus < drained parts (l + 1)) : level parts surplus = l := by
  obtain ⟨hle', hlt'⟩ := drained_level h hfloor
  refine le_antisymm ?_ ?_ <;> by_contra hne
  · exact absurd ((drained_mono parts (by omega)).trans hle') (not_le.2 hlt)
  · exact absurd ((drained_mono parts (by omega)).trans hle) (not_le.2 hlt')

/-- As long as not everything is taken, another round takes something. -/
theorem countP_pos_of_drained_lt {l : ℕ} (h : drained parts l < assigned parts) :
    0 < parts.countP (l < ·.floor) := by
  rw [List.countP_pos_iff]
  by_contra hnone
  push Not at hnone
  exact h.ne (drained_eq_assigned fun p hp => by simpa using hnone p hp)

/-! ## Bounds -/

/-- Whatever the other parts are, a part gets no more above its floor than what it leaves of the
total in even parts, rounded up. -/
theorem getElem_settle_le {t i : ℕ} (hi : i < parts.length) (h : i < (settle t parts).length) :
    (settle t parts)[i] ≤ parts[i].floor + ((t - parts[i].floor) / parts.length + 1) := by
  have hassigned : parts[i].floor ≤ assigned parts :=
    List.single_le_sum (fun _ _ => Nat.zero_le _) _
      (List.mem_map_of_mem (f := Part.floor) (List.getElem_mem hi))
  by_cases hle : assigned parts ≤ t
  · simp only [settle, if_pos hle]
    rw [getElem_handOut hi]
    have hrounds : (t - assigned parts) / parts.length ≤ (t - parts[i].floor) / parts.length :=
      Nat.div_le_div_right (by omega)
    split <;> omega
  · simp only [settle, if_neg hle, takeBack, List.getElem_map, List.getElem_zipIdx]
    exact (Nat.sub_le _ _).trans ((Nat.sub_le _ _).trans (Nat.le_add_right _ _))

end TierBudget.Apportionment
