import Mathlib.Algebra.BigOperators.Group.List.Basic
import Mathlib.Algebra.Order.Ring.Nat
import Mathlib.Data.List.Nodup
import Mathlib.Data.List.Perm.Basic
import TierBudget.Apportionment
/-!
# Counts add up

Handing out and taking back end at the total that was asked for (`sum_settle`), however far the cut
shares were from it. Both count positions: the units of the last, unfinished round go to as many
different parts as there are units, because the order in which they go is a rearrangement of the
parts (`countP_mem_map_snd`). For taking back, `drained_level` brackets the surplus between the
rounds that fit and one more.
-/

namespace TierBudget.Apportionment

theorem total_eq_sum (ns : List ℕ) : total ns = ns.sum := rfl

/-! ## Positions -/

theorem countP_mem {α : Type} [DecidableEq α] {l c : List α} (hl : l.Nodup) (hc : c.Nodup)
    (h : c ⊆ l) : l.countP (c.contains ·) = c.length := by
  rw [List.countP_eq_length_filter]
  refine List.Perm.length_eq ((List.perm_ext_iff_of_nodup (hl.filter _) hc).2 fun a => ?_)
  rw [List.mem_filter, List.contains_iff_mem]
  exact ⟨fun ha => ha.2, fun ha => ⟨h ha, ha⟩⟩

variable {parts : List Part}

theorem nodup_map_snd_zipIdx : (parts.zipIdx.map (·.2)).Nodup := by
  rw [List.zipIdx_map_snd]
  exact List.nodup_range'

/-- As many parts are chosen as the list of the chosen is long. -/
theorem countP_mem_map_snd {chosen sorted : List (Part × ℕ)} (h : chosen.Sublist sorted)
    (hperm : sorted.Perm parts.zipIdx) :
    parts.zipIdx.countP (fun x => (chosen.map (·.2)).contains x.2) = chosen.length := by
  have hnodup : (sorted.map (·.2)).Nodup := (hperm.map _).nodup_iff.2 nodup_map_snd_zipIdx
  have hcount := countP_mem nodup_map_snd_zipIdx ((h.map _).nodup hnodup)
    (List.Subset.trans (h.map (·.2)).subset (hperm.map _).subset)
  rwa [List.countP_map, List.length_map] at hcount

theorem sum_map_add_ite {α : Type} (l : List α) (f : α → ℕ) (p : α → Bool) :
    (l.map fun x => f x + if p x then 1 else 0).sum = (l.map f).sum + l.countP p := by
  induction l with
  | nil => rfl
  | cons a l ih =>
    rw [List.map_cons, List.map_cons, List.sum_cons, List.sum_cons, ih, List.countP_cons]
    omega

theorem sum_map_zipIdx (f : Part → ℕ) :
    (parts.zipIdx.map fun x => f x.1).sum = (parts.map f).sum := by
  rw [show (fun x : Part × ℕ => f x.1) = f ∘ (·.1) from rfl, ← List.map_map, List.zipIdx_map_fst]

/-! ## Handing out -/

theorem byLargest_perm (parts : List Part) : (byLargest parts).Perm parts.zipIdx :=
  List.mergeSort_perm _ _

theorem bySmallest_perm (parts : List Part) : (bySmallest parts).Perm parts.zipIdx :=
  List.mergeSort_perm _ _

@[simp] theorem length_byLargest (parts : List Part) : (byLargest parts).length = parts.length := by
  rw [(byLargest_perm parts).length_eq, List.length_zipIdx]

@[simp] theorem length_handOut (parts : List Part) (d : ℕ) :
    (handOut parts d).length = parts.length := by simp [handOut]

@[simp] theorem length_takeBack (parts : List Part) (s : ℕ) :
    (takeBack parts s).length = parts.length := by simp [takeBack]

@[simp] theorem length_settle (t : ℕ) (parts : List Part) :
    (settle t parts).length = parts.length := by
  unfold settle
  split <;> simp

/-- **All units are handed out.** -/
theorem sum_handOut (h : parts ≠ []) (d : ℕ) : (handOut parts d).sum = assigned parts + d := by
  have hpos : 0 < parts.length := List.length_pos_of_ne_nil h
  have hfav : ((byLargest parts).take (d % parts.length)).length = d % parts.length := by
    rw [List.length_take, length_byLargest, min_eq_left (Nat.mod_lt _ hpos).le]
  have hrounds : (parts.map fun p => p.floor + d / parts.length).sum =
      assigned parts + parts.length * (d / parts.length) := by
    rw [List.sum_map_add, List.map_const', List.sum_replicate_nat]
    rfl
  simp only [handOut]
  rw [sum_map_add_ite parts.zipIdx (fun x => x.1.floor + d / parts.length),
    countP_mem_map_snd (List.take_sublist _ _) (byLargest_perm parts), hfav,
    sum_map_zipIdx (fun p => p.floor + d / parts.length), hrounds, add_assoc, Nat.div_add_mod]

/-! ## Taking back -/

/-- One more round takes a unit from every part that has one left. -/
theorem drained_succ (parts : List Part) (level : ℕ) :
    drained parts (level + 1) = drained parts level + parts.countP (level < ·.floor) := by
  have h : ∀ p : Part, min p.floor (level + 1) =
      min p.floor level + if decide (level < p.floor) = true then 1 else 0 := fun p => by
    split <;> simp_all <;> omega
  rw [drained, drained, total_eq_sum, total_eq_sum, ← sum_map_add_ite]
  simp only [h]

theorem drained_zero (parts : List Part) : drained parts 0 = 0 := by
  simp [drained, total_eq_sum]

/-- Enough rounds take everything. -/
theorem drained_eq_assigned {level : ℕ} (h : ∀ p ∈ parts, p.floor ≤ level) :
    drained parts level = assigned parts := by
  rw [drained, assigned, List.map_congr_left fun p hp => min_eq_left (h p hp)]

theorem levelFrom_spec (surplus : ℕ) :
    ∀ {bits acc : ℕ}, drained parts acc ≤ surplus → surplus < drained parts (acc + 2 ^ bits) →
      drained parts (levelFrom parts surplus bits acc) ≤ surplus ∧
        surplus < drained parts (levelFrom parts surplus bits acc + 1)
  | 0, acc, hle, hlt => ⟨hle, hlt⟩
  | bits + 1, acc, hle, hlt => by
    rw [levelFrom, show Nat.pow 2 bits = 2 ^ bits from rfl]
    split
    · next hnext =>
      refine levelFrom_spec surplus hnext ?_
      rwa [add_assoc, ← two_mul, ← pow_succ']
    · next hnext => exact levelFrom_spec surplus hle (not_le.1 hnext)

/-- **The level brackets the surplus**, if the parts have so many units at all. -/
theorem drained_level {surplus : ℕ} (h : surplus < assigned parts)
    (hfloor : ∀ p ∈ parts, p.floor ≤ 2 ^ 32) :
    drained parts (level parts surplus) ≤ surplus ∧
      surplus < drained parts (level parts surplus + 1) :=
  levelFrom_spec surplus (by rw [drained_zero]; exact surplus.zero_le)
    (by rwa [zero_add, drained_eq_assigned hfloor])

theorem countP_filter_bySmallest (parts : List Part) (level : ℕ) :
    ((bySmallest parts).filter fun p => level < p.1.floor).length =
      parts.countP (level < ·.floor) := by
  rw [← List.countP_eq_length_filter, (bySmallest_perm parts).countP_eq]
  conv_rhs => rw [← List.zipIdx_map_fst 0 parts]
  rw [List.countP_map]
  rfl

/-- Cutting off at a level keeps what its rounds do not take. -/
theorem sum_sub_add_drained (parts : List Part) (level : ℕ) :
    (parts.map fun p => p.floor - level).sum + drained parts level = assigned parts := by
  rw [drained, assigned, total_eq_sum, total_eq_sum, ← List.sum_map_add]
  congr 1
  exact List.map_congr_left fun p _ => by omega

theorem sum_map_sub_ite {α : Type} (l : List α) (f : α → ℕ) (p : α → Bool)
    (h : ∀ x ∈ l, p x → 0 < f x) :
    (l.map fun x => f x - if p x then 1 else 0).sum + l.countP p = (l.map f).sum := by
  induction l with
  | nil => rfl
  | cons a l ih =>
    have ih := ih fun x hx => h x (List.mem_cons_of_mem a hx)
    have ha := h a List.mem_cons_self
    rw [List.map_cons, List.map_cons, List.sum_cons, List.sum_cons, List.countP_cons]
    split <;> simp_all <;> omega

/-- **The surplus is taken back**, if the parts have so many units. -/
theorem sum_takeBack {s : ℕ} (h : s < assigned parts)
    (hfloor : ∀ p ∈ parts, p.floor ≤ 2 ^ 32) :
    (takeBack parts s).sum + s = assigned parts := by
  obtain ⟨hle, hlt⟩ := drained_level h hfloor
  rw [drained_succ] at hlt
  set rounds := level parts s with hrounds
  set lowered := ((bySmallest parts).filter fun p => rounds < p.1.floor).take
    (s - drained parts rounds) with hlowered
  have hlen : lowered.length = s - drained parts rounds := by
    rw [hlowered, List.length_take, countP_filter_bySmallest]
    omega
  have hsub : lowered.Sublist (bySmallest parts) :=
    (List.take_sublist _ _).trans List.filter_sublist
  have hperm := bySmallest_perm parts
  -- only parts that have a unit left are lowered once more
  have hpos : ∀ x ∈ parts.zipIdx, (lowered.map (·.2)).contains x.2 → 0 < x.1.floor - rounds := by
    intro x hx hc
    obtain ⟨y, hy, hxy⟩ := List.mem_map.1 (List.contains_iff_mem.1 hc)
    obtain rfl : y = x :=
      List.inj_on_of_nodup_map nodup_map_snd_zipIdx
        (hperm.subset (hsub.subset hy)) hx hxy
    have := List.of_mem_filter (List.mem_of_mem_take hy)
    simp only [decide_eq_true_eq] at this
    omega
  have hsum := sum_map_sub_ite parts.zipIdx (fun x => x.1.floor - rounds)
    (fun x => (lowered.map (·.2)).contains x.2) hpos
  rw [countP_mem_map_snd hsub hperm, hlen, sum_map_zipIdx (fun p => p.floor - rounds)] at hsum
  have hcut := sum_sub_add_drained parts rounds
  change (parts.zipIdx.map fun x => x.1.floor - rounds -
    if (lowered.map (·.2)).contains x.2 then 1 else 0).sum + s = _
  omega

/-! ## Both -/

/-- **Settled counts add up to the total.** -/
theorem sum_settle {t : ℕ} (ht : 0 < t) (h : parts ≠ []) (hfloor : ∀ p ∈ parts, p.floor ≤ 2 ^ 32) :
    (settle t parts).sum = t := by
  unfold settle
  split
  · next hle =>
    rw [sum_handOut h]
    omega
  · next hlt =>
    have := sum_takeBack (s := assigned parts - t) (by omega) hfloor
    omega

end TierBudget.Apportionment
