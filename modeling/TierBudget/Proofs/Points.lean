import TierBudget.Picker
import TierBudget.Proofs.Tiers
/-!
# The points of a picker

A picker keeps, for each endpoint, the point where its points stop, and the endpoint that owns a
point is the first whose points stop behind it. Bounds repeat where endpoints have no weight, but
they are sorted, so a halving search finds the same position as a search from the front
(`partitionPoint_eq_findIdx`, `Picker.Lays.pickAt_eq`). That position owns the point: the points of
a position go from the sum of the counts before it on, and are as many as its count
(`Picker.Lays.positionAt?_eq_some_iff`, `Picker.Lays.card_points`). All positions together own the
points below the scale (`Picker.points_are_partitioned`).
-/

namespace TierBudget

/-! ## Halving search -/

section Halving

variable {α : Type} {q : α → Bool} {l : List α} {lo hi : ℕ}

/-- The first position in `[lo, hi)` whose element fails the test, or `hi`, if those that pass come
before those that fail. Every round halves the interval. -/
def halve (q : α → Bool) (l : List α) (lo hi : ℕ) : ℕ :=
  if lo < hi then
    let mid := (lo + hi) / 2
    if l[mid]?.any q then halve q l (mid + 1) hi else halve q l lo mid
  else lo
termination_by hi - lo

/-- The number of elements that pass the test, if those come first. -/
def partitionPoint (q : α → Bool) (l : List α) : ℕ := halve q l 0 l.length

/-- What a round of the search keeps: elements before the interval pass, those behind it fail. -/
structure Between (q : α → Bool) (l : List α) (lo hi : ℕ) : Prop where
  le : lo ≤ hi
  le_length : hi ≤ l.length
  before : ∀ i (h : i < l.length), i < lo → q l[i]
  behind : ∀ i (h : i < l.length), hi ≤ i → ¬ q l[i]

theorem Between.raise (h : Between q l lo hi) (hl : l.Pairwise fun a b => q b → q a) {mid : ℕ}
    (hmid : mid < l.length) (hhi : mid < hi) (hq : q l[mid]) : Between q l (mid + 1) hi := by
  refine ⟨hhi, h.le_length, fun i hi' hlt => ?_, h.behind⟩
  rcases Nat.lt_succ_iff_lt_or_eq.1 hlt with hlt | rfl
  · exact List.pairwise_iff_getElem.1 hl i mid hi' hmid hlt hq
  · exact hq

theorem Between.lower (h : Between q l lo hi) (hl : l.Pairwise fun a b => q b → q a) {mid : ℕ}
    (hmid : mid < l.length) (hlo : lo ≤ mid) (hq : ¬ q l[mid]) : Between q l lo mid := by
  refine ⟨hlo, hmid.le, h.before, fun i hi' hle => ?_⟩
  rcases hle.lt_or_eq with hlt | rfl
  · exact fun hi => hq (List.pairwise_iff_getElem.1 hl mid i hmid hi' hlt hi)
  · exact hq

theorem Between.halve (h : Between q l lo hi) (hl : l.Pairwise fun a b => q b → q a) :
    Between q l (halve q l lo hi) (halve q l lo hi) := by
  -- By induction on the rounds: the search goes on behind the middle, before it, or has ended.
  fun_induction TierBudget.halve q l lo hi with
  | case1 lo hi hlt mid hq ih =>
    have hmid : mid < l.length := by have := h.le_length; omega
    rw [List.getElem?_eq_getElem hmid, Option.any_some] at hq
    exact ih (h.raise hl hmid (by omega) hq)
  | case2 lo hi hlt mid hq ih =>
    have hmid : mid < l.length := by have := h.le_length; omega
    rw [List.getElem?_eq_getElem hmid, Option.any_some] at hq
    exact ih (h.lower hl hmid (by omega) hq)
  | case3 lo hi hle =>
    obtain rfl : lo = hi := by have := h.le; omega
    exact h

/-- **The halving search finds what a search from the front finds**, if the elements that pass the
test come first. -/
theorem partitionPoint_eq_findIdx (hl : l.Pairwise fun a b => q b → q a) :
    partitionPoint q l = l.findIdx (!q ·) := by
  have hstart : Between q l 0 l.length :=
    ⟨Nat.zero_le _, le_rfl, fun _ _ h => absurd h (Nat.not_lt_zero _),
      fun _ h hle => absurd h (Nat.not_lt.2 hle)⟩
  obtain ⟨-, hle, hbefore, hbehind⟩ := hstart.halve hl
  rcases hle.lt_or_eq with hlt | heq
  · refine ((List.findIdx_eq hlt).2 ⟨?_, fun i hi => ?_⟩).symm
    · simpa using hbehind _ hlt le_rfl
    · simpa using hbefore i (hi.trans hlt) hi
  · refine heq.trans (List.findIdx_eq_length.2 fun a ha => ?_).symm
    obtain ⟨i, hi, rfl⟩ := List.getElem_of_mem ha
    simpa using hbefore i hi (hi.trans_eq heq.symm)

end Halving

namespace Picker

variable {k : Picker} {ws : List (FixedEntry String)} {i j : ℕ} {point : Count}

/-! ## Where the points of an endpoint start -/

/-- The sum of the counts before a position. -/
def startOf (ws : List (FixedEntry String)) (i : ℕ) : ℕ := ((ws.take i).map (·.count.toNat)).sum

@[simp] theorem startOf_zero (ws : List (FixedEntry String)) : startOf ws 0 = 0 := rfl

@[simp] theorem startOf_cons_succ (w : FixedEntry String) (ws : List (FixedEntry String)) (i : ℕ) :
    startOf (w :: ws) (i + 1) = w.count.toNat + startOf ws i := by
  rw [startOf, List.take_succ_cons, List.map_cons, List.sum_cons, startOf]

theorem startOf_length (ws : List (FixedEntry String)) :
    startOf ws ws.length = (ws.map (·.count.toNat)).sum := by
  rw [startOf, List.take_length]

theorem startOf_succ {w : FixedEntry String} (h : ws[i]? = some w) :
    startOf ws (i + 1) = startOf ws i + w.count.toNat := by
  rw [startOf, List.take_add_one, h, List.map_append, List.sum_append]
  rfl

theorem startOf_mono (ws : List (FixedEntry String)) : Monotone (startOf ws) := by
  refine monotone_nat_of_le_succ fun i => ?_
  rw [startOf, startOf, List.take_add_one, List.map_append, List.sum_append]
  exact Nat.le_add_right _ _

/-! ## Bounds -/

/-- The bounds of a picker are where the points of the endpoints stop. -/
def Lays (ws : List (FixedEntry String)) (k : Picker) : Prop :=
  k.bounds.map (fun b => (b.1, b.2.toNat)) = ws.mapIdx fun i w => (w.id, startOf ws (i + 1))

theorem exists_boundsFrom {start : Count}
    (h : start.toNat + (ws.map (·.count.toNat)).sum < UInt32.size) :
    ∃ bounds, boundsFrom start ws = some bounds ∧ bounds.map (fun b => (b.1, b.2.toNat)) =
      ws.mapIdx fun i w => (w.id, start.toNat + startOf ws (i + 1)) := by
  induction ws generalizing start with
  | nil => exact ⟨[], rfl, rfl⟩
  | cons w ws ih =>
    rw [List.map_cons, List.sum_cons, ← Nat.add_assoc] at h
    obtain ⟨stop, hstop, hnat⟩ := Count.exists_add? ((Nat.le_add_right _ _).trans_lt h)
    rw [← hnat] at h
    obtain ⟨bounds, hrest, hmap⟩ := ih h
    refine ⟨(w.id, stop) :: bounds, ?_, ?_⟩
    · rw [boundsFrom, hstop, Option.bind_eq_bind, Option.bind_some, hrest]
      rfl
    · simp [hmap, List.mapIdx_cons, hnat, Nat.add_assoc]

/-- **The running sum does not leave the 32-bit range**, and the bounds are what it should be. -/
theorem exists_ofTier? (p : Policy) (t : Tier) :
    ∃ k, ofTier? p t = some k ∧ Lays (t.fixedWeights p) k := by
  have hsum : ((t.fixedWeights p).map (·.count.toNat)).sum ≤ p.scale.size.toNat := by
    by_cases hnil : t.entries = []
    · rw [Tier.fixedWeights, hnil]
      exact Nat.zero_le _
    · exact (p.isBudget_toFixed hnil).sum_eq.le
  have hlt : (0 : Count).toNat + ((t.fixedWeights p).map (·.count.toNat)).sum < UInt32.size := by
    rw [UInt32.toNat_zero, Nat.zero_add]
    exact hsum.trans_lt p.scale.size.toNat_lt
  obtain ⟨bounds, hbounds, hmap⟩ := exists_boundsFrom hlt
  refine ⟨⟨bounds⟩, by rw [ofTier?, hbounds, Option.map_some], ?_⟩
  simpa [Lays] using hmap

namespace Lays

theorem length_eq (h : Lays ws k) : k.bounds.length = ws.length := by
  have hlen := congrArg List.length h
  rwa [List.length_map, List.length_mapIdx] at hlen

theorem map_getElem? (h : Lays ws k) (i : ℕ) :
    (k.bounds[i]?).map (fun b => (b.1, b.2.toNat)) =
      (ws[i]?).map fun w => (w.id, startOf ws (i + 1)) := by
  rw [← List.getElem?_map, h, List.getElem?_mapIdx]

theorem toNat_bound (h : Lays ws k) (hi : i < k.bounds.length) :
    k.bounds[i].2.toNat = startOf ws (i + 1) := by
  have hget := h.map_getElem? i
  rw [List.getElem?_eq_getElem hi, List.getElem?_eq_getElem (h.length_eq ▸ hi), Option.map_some,
    Option.map_some, Option.some_inj, Prod.mk.injEq] at hget
  exact hget.2

theorem map_id_getElem? (h : Lays ws k) (i : ℕ) :
    (k.bounds[i]?).map (·.1) = (ws.map FixedEntry.id)[i]? := by
  have hget := congrArg (Option.map Prod.fst) (h.map_getElem? i)
  rw [Option.map_map, Option.map_map] at hget
  rw [List.getElem?_map]
  exact hget

/-- The bounds are sorted, though not strictly. -/
theorem pairwise_le (h : Lays ws k) : k.bounds.Pairwise fun a b => a.2 ≤ b.2 := by
  refine List.pairwise_iff_getElem.2 fun i j hi hj hij => ?_
  rw [UInt32.le_iff_toNat_le, h.toNat_bound hi, h.toNat_bound hj]
  exact startOf_mono ws (Nat.succ_le_succ hij.le)

theorem toNat_total (h : Lays ws k) : k.total.toNat = startOf ws ws.length := by
  rw [total, List.getLast?_eq_getElem?]
  rcases Nat.eq_zero_or_pos k.bounds.length with hzero | hpos
  · rw [List.getElem?_eq_none (by omega), ← h.length_eq, hzero]
    rfl
  · have hlast : k.bounds.length - 1 < k.bounds.length := by omega
    rw [List.getElem?_eq_getElem hlast, Option.map_some, Option.getD_some, h.toNat_bound hlast,
      ← h.length_eq, Nat.sub_add_cancel hpos]

end Lays

/-! ## Positions -/

/-- The position of the endpoint that owns a point, by halving. -/
def positionAt? (k : Picker) (point : Count) : Option ℕ :=
  if k.total ≤ point then none else some (partitionPoint (·.2 ≤ point) k.bounds)

theorem positionAt?_eq_none_iff : k.positionAt? point = none ↔ k.total ≤ point := by
  rw [positionAt?, ite_eq_left_iff]
  exact ⟨fun h => by_contra fun hlt => Option.some_ne_none _ (h hlt), fun hle hlt => absurd hle hlt⟩

/-- Whether a point is one of those that the position owns: its count many, from the sum of the
counts before it on. -/
def Owns (ws : List (FixedEntry String)) (i : ℕ) (point : Count) : Prop :=
  ∃ w, ws[i]? = some w ∧ startOf ws i ≤ point.toNat ∧ point.toNat < startOf ws i + w.count.toNat

/-- The points of a position lie before those of later ones. -/
theorem Owns.lt_of_lt (h : Owns ws i point) (hij : i < j) : point.toNat < startOf ws j := by
  obtain ⟨w, hw, -, hlt⟩ := h
  rw [← startOf_succ hw] at hlt
  exact hlt.trans_le (startOf_mono ws hij)

theorem Owns.lt_length (h : Owns ws i point) : i < ws.length := by
  obtain ⟨w, hw, -⟩ := h
  exact (List.getElem?_eq_some_iff.1 hw).1

theorem Owns.eq (h : Owns ws i point) (h' : Owns ws j point) : i = j := by
  obtain ⟨-, -, hle, -⟩ := id h
  obtain ⟨-, -, hle', -⟩ := id h'
  rcases Nat.lt_trichotomy i j with hlt | heq | hgt
  · exact absurd (h.lt_of_lt hlt) (Nat.not_lt.2 hle')
  · exact heq
  · exact absurd (h'.lt_of_lt hgt) (Nat.not_lt.2 hle)

/-- Every point below the sum of the counts has an owner. -/
theorem exists_owns (h : point.toNat < startOf ws ws.length) : ∃ i, Owns ws i point := by
  classical
  -- The owner is one before the first position that starts behind the point.
  have hex : ∃ n, point.toNat < startOf ws n := ⟨_, h⟩
  obtain ⟨i, hi⟩ : ∃ i, Nat.find hex = i + 1 := Nat.exists_eq_succ_of_ne_zero fun hzero => by
    have hlt := Nat.find_spec hex
    rw [hzero, startOf_zero] at hlt
    exact Nat.not_lt_zero _ hlt
  have hlen : i < ws.length := Nat.lt_of_succ_le (hi.ge.trans (Nat.find_min' hex h))
  have hle : startOf ws i ≤ point.toNat := Nat.not_lt.1 (Nat.find_min hex (hi ▸ Nat.lt_succ_self i))
  have hw := List.getElem?_eq_getElem hlen
  exact ⟨i, ws[i], hw, hle, startOf_succ hw ▸ hi ▸ Nat.find_spec hex⟩

namespace Lays

theorem partitionPoint_eq (h : Lays ws k) (point : Count) :
    partitionPoint (·.2 ≤ point) k.bounds = k.bounds.findIdx (point < ·.2) := by
  rw [partitionPoint_eq_findIdx (h.pairwise_le.imp fun hab hb => ?_)]
  · congr 1
    funext b
    rw [← decide_not]
    exact decide_eq_decide.2 UInt32.not_le
  · exact decide_eq_true (UInt32.le_trans hab (of_decide_eq_true hb))

theorem total_le_iff (h : Lays ws k) : k.total ≤ point ↔ startOf ws ws.length ≤ point.toNat := by
  rw [UInt32.le_iff_toNat_le, h.toNat_total]

theorem positionAt?_of_owns (h : Lays ws k) (ho : Owns ws i point) :
    k.positionAt? point = some i := by
  have hbelow := ho.lt_of_lt ho.lt_length
  obtain ⟨w, hw, hle, hlt⟩ := id ho
  rw [positionAt?, if_neg (by rw [h.total_le_iff]; omega), h.partitionPoint_eq, Option.some_inj]
  have hi : i < k.bounds.length := h.length_eq ▸ ho.lt_length
  refine (List.findIdx_eq hi).2 ⟨?_, fun j hj => ?_⟩
  · rw [decide_eq_true_eq, UInt32.lt_iff_toNat_lt, h.toNat_bound hi, startOf_succ hw]
    exact hlt
  · rw [decide_eq_false_iff_not, UInt32.lt_iff_toNat_lt, h.toNat_bound (hj.trans hi), Nat.not_lt]
    exact (startOf_mono ws hj).trans hle

/-- **The halving search finds the owner of a point.** -/
theorem positionAt?_eq_some_iff (h : Lays ws k) :
    k.positionAt? point = some i ↔ Owns ws i point := by
  refine ⟨fun hi => ?_, h.positionAt?_of_owns⟩
  have hbelow : ¬ k.total ≤ point := fun hle => by
    rw [positionAt?_eq_none_iff.2 hle] at hi
    cases hi
  rw [h.total_le_iff, Nat.not_le] at hbelow
  obtain ⟨j, ho⟩ := exists_owns hbelow
  obtain rfl : j = i := Option.some_inj.1 ((h.positionAt?_of_owns ho).symm.trans hi)
  exact ho

/-- **A picker answers with the id at the position**, which it finds from the front. -/
theorem pickAt_eq (h : Lays ws k) (point : Count) :
    k.pickAt point = (k.positionAt? point).bind fun i => (ws.map FixedEntry.id)[i]? := by
  rw [pickAt, positionAt?]
  split
  · rfl
  · rw [Option.bind_some, h.partitionPoint_eq, List.find?_eq_getElem?_findIdx, h.map_id_getElem?]

theorem pickAt_of_owns (h : Lays ws k) (ho : Owns ws i point) :
    k.pickAt point = (ws.map FixedEntry.id)[i]? := by
  rw [h.pickAt_eq, h.positionAt?_of_owns ho, Option.bind_some]

theorem pickAt_eq_none_iff (h : Lays ws k) : k.pickAt point = none ↔ k.total ≤ point := by
  constructor
  · refine fun hnone => by_contra fun hlt => ?_
    rw [h.total_le_iff, Nat.not_le] at hlt
    obtain ⟨i, ho⟩ := exists_owns hlt
    rw [h.pickAt_of_owns ho, List.getElem?_eq_none_iff, List.length_map] at hnone
    exact absurd ho.lt_length (Nat.not_lt.2 hnone)
  · exact fun hle => by rw [pickAt, if_pos hle]

/-- **A position owns as many points as its count.** -/
theorem card_points (h : Lays ws k) {w : FixedEntry String} (hw : ws[i]? = some w) :
    {n ∈ Finset.range k.total.toNat | k.positionAt? (.ofNat n) = some i}.card = w.count.toNat := by
  have hstop : startOf ws i + w.count.toNat ≤ k.total.toNat := by
    rw [← startOf_succ hw, h.toNat_total]
    exact startOf_mono ws (List.getElem?_eq_some_iff.1 hw).1
  have hpoints : {n ∈ Finset.range k.total.toNat | k.positionAt? (.ofNat n) = some i} =
      Finset.Ico (startOf ws i) (startOf ws i + w.count.toNat) := by
    ext n
    rw [Finset.mem_filter, Finset.mem_range, Finset.mem_Ico, h.positionAt?_eq_some_iff, Owns, hw]
    constructor
    · rintro ⟨hn, _, heq, hle, hlt⟩
      rw [UInt32.toNat_ofNat_of_lt' (hn.trans k.total.toNat_lt)] at hle hlt
      cases heq
      exact ⟨hle, hlt⟩
    · rintro ⟨hle, hlt⟩
      have hn := hlt.trans_le hstop
      refine ⟨hn, w, rfl, ?_⟩
      rw [UInt32.toNat_ofNat_of_lt' (hn.trans k.total.toNat_lt)]
      exact ⟨hle, hlt⟩
  rw [hpoints, Nat.card_Ico, Nat.add_sub_cancel_left]

end Lays

theorem total_of_lays {p : Policy} {t : Tier} (h : Lays (t.fixedWeights p) k) :
    k.total = if t.entries = [] then 0 else p.scale.size := by
  rw [← UInt32.toNat_inj, h.toNat_total, startOf_length]
  split
  · next hnil =>
    rw [Tier.fixedWeights, hnil]
    rfl
  · next hne => exact (p.isBudget_toFixed hne).sum_eq

/-- **The points are partitioned by the counts.** Whatever tier a picker is made of, its sums stay
in the 32-bit range, and it has as many points as the scale has units, or none for an empty tier. A
point below that is owned by one position only, namely where the sum of the counts before it is
reached and its own count is not yet used up, and the id there is picked; halving finds the same
position. So every position owns as many points as its count, and these follow each other in the
order of the tier. -/
theorem points_are_partitioned (p : Policy) (t : Tier) :
    let ws := t.fixedWeights p
    ∃ k, ofTier? p t = some k ∧
      k.total = (if t.entries = [] then 0 else p.scale.size) ∧
      (∀ point, k.pickAt point = none ↔ k.total ≤ point) ∧
      (∀ point, point < k.total → ∃ i id, Owns ws i point ∧ (∀ j, Owns ws j point → j = i) ∧
        t.ids[i]? = some id ∧ k.pickAt point = some id) ∧
      (∀ point, k.pickAt point = (k.positionAt? point).bind fun i => t.ids[i]?) ∧
      (∀ point i, k.positionAt? point = some i ↔ Owns ws i point) ∧
      ∀ i w, ws[i]? = some w →
        {n ∈ Finset.range k.total.toNat | k.positionAt? (.ofNat n) = some i}.card =
          w.count.toNat := by
  intro ws
  obtain ⟨k, hk, h⟩ := exists_ofTier? p t
  have hids : (t.fixedWeights p).map FixedEntry.id = t.ids := t.map_id_fixedWeights p
  refine ⟨k, hk, total_of_lays h, fun point => h.pickAt_eq_none_iff, fun point hlt => ?_,
    fun point => hids ▸ h.pickAt_eq point, fun point i => h.positionAt?_eq_some_iff,
    fun i w => h.card_points⟩
  rw [← UInt32.not_le, h.total_le_iff, Nat.not_le] at hlt
  obtain ⟨i, ho⟩ := exists_owns hlt
  have hi : i < t.ids.length := by
    rw [← hids, List.length_map]
    exact ho.lt_length
  have hid := List.getElem?_eq_getElem hi
  exact ⟨i, t.ids[i], ho, fun j hj => hj.eq ho, hid, by rw [h.pickAt_of_owns ho, hids, hid]⟩

/-- Five endpoints, of which the second and the fourth have half the weight each. -/
theorem points_are_partitioned_gaps :
    let t : Tier := ⟨"t", [⟨"a", 0⟩, ⟨"b", 1⟩, ⟨"c", 0⟩, ⟨"d", 1⟩, ⟨"e", 0⟩]⟩
    ∃ k, ofTier? default t = some k ∧ k.total = 10000 ∧ k.pickAt 0 = some "b" ∧
      k.pickAt 4999 = some "b" ∧ k.pickAt 5000 = some "d" ∧ k.pickAt 10000 = none := by
  intro t
  obtain ⟨k, hk, htotal, hnone, -, hpick, howns, -⟩ := points_are_partitioned default t
  have hws : t.fixedWeights default =
      [⟨"a", 0⟩, ⟨"b", 5000⟩, ⟨"c", 0⟩, ⟨"d", 5000⟩, ⟨"e", 0⟩] := by decide +kernel
  rw [hws] at howns
  refine ⟨k, hk, htotal, ?_, ?_, ?_, (hnone 10000).2 (UInt32.le_of_eq htotal)⟩
  · rw [hpick, (howns 0 1).2 ⟨⟨"b", 5000⟩, rfl, by decide, by decide⟩]
    rfl
  · rw [hpick, (howns 4999 1).2 ⟨⟨"b", 5000⟩, rfl, by decide, by decide⟩]
    rfl
  · rw [hpick, (howns 5000 3).2 ⟨⟨"d", 5000⟩, rfl, by decide, by decide⟩]
    rfl

end Picker

end TierBudget
