import TierBudget.Proofs.Settled
import TierBudget.Proofs.Shifted
/-!
# Repeating a request

Setting a weight to the same unit again starts from counts that are already rounded, so that a unit
may move a second time. It moves between the target and one other endpoint if these two are to move
more than a unit against each other, and then a third time changes nothing. If they are to move less
than a unit, the second time changes nothing (`Tier.repeated_request_settles`).
-/

namespace TierBudget

namespace Policy

open Binary64 Apportionment

/-! ## A third, twice -/

/-- A third of ten thousand units, nearly. -/
theorem abs_value_third_sub_le : |value (clampUnit (1 / 3)) * 10000 - 10000 / 3| ≤ 1 / 2 ^ 40 := by
  have hthree : HasValue (3 : Float) 3 := hasValue_ofNat (n := 3) (by norm_num)
  have hone : IsDouble 1 := by simpa using isDouble_natCast (n := 1)
  have hvalue : HasValue (1 / 3 : Float) (nearest (1 / 3)) :=
    hasValue_one.div hthree (by norm_num) (abs_le_of_le_two_pow (by norm_num))
  have hround := abs_nearest_sub_le_of_abs_le (k := 0) (q := 1 / 3) (by norm_num) (by norm_num)
  rw [hvalue.clampUnit_eq_self (nearest_nonneg (by norm_num)) (nearest_le hone (by norm_num)),
    hvalue.value_eq, show nearest (1 / 3) * 10000 - 10000 / 3 = (nearest (1 / 3) - 1 / 3) * 10000 by
      ring, abs_mul]
  norm_num at hround ⊢
  linarith

/-- The first of three entries is set to a third and gets a unit too many, because it comes first. -/
theorem countsAfter_third :
    countsAfter default [⟨"a", 5000⟩, ⟨"b", 4000⟩, ⟨"c", 1000⟩] 0 (1 / 3) =
      [⟨"a", 3334⟩, ⟨"b", 5333⟩, ⟨"c", 1333⟩] := by
  have hparts : (shares ((redistribute ((default : Policy).ofFixed
      [⟨"a", 5000⟩, ⟨"b", 4000⟩, ⟨"c", 1000⟩]) 0 (1 / 3)).map Entry.unit)).map
        (part (default : Policy).scale) =
      [⟨3333, 333333333⟩, ⟨5333, 333333333⟩, ⟨1333, 333333333⟩] := by decide +kernel
  have hsettle : settle 10000 [⟨3333, 333333333⟩, ⟨5333, 333333333⟩, ⟨1333, 333333333⟩] =
      [3334, 5333, 1333] := by
    simp [settle, assigned, total, handOut, byLargest, List.mergeSort]
  rw [countsAfter, toFixed_eq_of_parts default hparts]
  exact congrArg _ hsettle

/-- The next time the second entry has more left over, and gets the unit. -/
theorem countsAfter_third_third :
    countsAfter default [⟨"a", 3334⟩, ⟨"b", 5333⟩, ⟨"c", 1333⟩] 0 (1 / 3) =
      [⟨"a", 3333⟩, ⟨"b", 5334⟩, ⟨"c", 1333⟩] := by
  have hparts : (shares ((redistribute ((default : Policy).ofFixed
      [⟨"a", 3334⟩, ⟨"b", 5333⟩, ⟨"c", 1333⟩]) 0 (1 / 3)).map Entry.unit)).map
        (part (default : Policy).scale) =
      [⟨3333, 333333333⟩, ⟨5333, 533353335⟩, ⟨1333, 133313331⟩] := by decide +kernel
  have hsettle : settle 10000 [⟨3333, 333333333⟩, ⟨5333, 533353335⟩, ⟨1333, 133313331⟩] =
      [3333, 5334, 1333] := by
    simp [settle, assigned, total, handOut, byLargest, List.mergeSort]
  rw [countsAfter, toFixed_eq_of_parts default hparts]
  exact congrArg _ hsettle

end Policy

/-! ## Tiers -/

namespace Tier

open Binary64 Policy

variable {p : Policy} {t : Tier} {id : String}

/-- A tier on the grid, of several endpoints but not too many, that has the endpoint `id`. -/
structure Adjustable (p : Policy) (t : Tier) (id : String) : Prop where
  onGrid : t.OnGrid p
  two_le : 2 ≤ t.entries.length
  sq_mul_le : t.entries.length ^ 2 * p.scale.size.toNat ≤ 2 ^ 50
  mem : id ∈ t.ids

/-- The tier once the weight of `id` has been set. -/
def adjusted (p : Policy) (t : Tier) (id : String) (desired : Float) : Tier :=
  { t with entries := p.ofFixed (countsAfter p (t.fixedWeights p) (t.ids.idxOf id) desired) }

@[simp] theorem length_fixedWeights (p : Policy) (t : Tier) :
    (t.fixedWeights p).length = t.entries.length := p.length_toFixed t.entries

@[simp] theorem length_entries_adjusted (desired : Float) :
    (t.adjusted p id desired).entries.length = t.entries.length := by
  rw [adjusted, ofFixed, List.length_map, length_countsAfter, length_fixedWeights]

namespace Adjustable

variable (h : t.Adjustable p id)
include h

theorem mul_le : t.entries.length * p.scale.size.toNat ≤ 2 ^ 50 :=
  (Nat.mul_le_mul_right _ (Nat.le_self_pow two_ne_zero _)).trans h.sq_mul_le

theorem ofFixed_fixedWeights : p.ofFixed (t.fixedWeights p) = t.entries :=
  h.onGrid.ofFixed_fixedWeights h.mul_le

theorem isBudget : p.IsBudget t.ids (t.fixedWeights p) :=
  isBudget_fixedWeights p (List.length_pos_iff.1 (by have := h.two_le; omega))

theorem idxOf_lt : t.ids.idxOf id < (t.fixedWeights p).length := by
  have hlt := List.idxOf_lt_length_iff.2 h.mem
  rwa [ids, List.length_map, ← length_fixedWeights p] at hlt

theorem isBudget_countsAfter (desired : Float) :
    p.IsBudget t.ids (countsAfter p (t.fixedWeights p) (t.ids.idxOf id) desired) :=
  h.isBudget.countsAfter h.idxOf_lt desired

/-- Setting the weight succeeds. -/
theorem setWeight_eq (desired : Float) :
    t.setWeight p id desired = .ok (t.adjusted p id desired) := by
  have hlen := h.two_le
  have hfind : t.entries.findIdx? (·.id = id) = some (t.ids.idxOf id) := by
    have hids : t.ids.findIdx? (· = id) = some (t.ids.idxOf id) :=
      List.findIdx?_eq_some_iff_findIdx_eq.2 ⟨List.idxOf_lt_length_iff.2 h.mem, rfl⟩
    rw [ids, List.findIdx?_map] at hids
    exact hids
  have hrebalance : p.rebalance t.entries id desired = (t.adjusted p id desired).entries := by
    rw [p.rebalance_eq desired hfind (by omega), ← h.ofFixed_fixedWeights]
    rfl
  unfold setWeight
  rw [hrebalance]
  split
  · next hnil =>
    have hzero := congrArg List.length hnil
    rw [length_entries_adjusted, List.length_nil] at hzero
    omega
  · rfl

theorem ids_adjusted (desired : Float) : (t.adjusted p id desired).ids = t.ids := by
  rw [adjusted, ids, map_id_ofFixed, (h.isBudget_countsAfter desired).ids_eq]

theorem fixedWeights_adjusted (desired : Float) : (t.adjusted p id desired).fixedWeights p =
    countsAfter p (t.fixedWeights p) (t.ids.idxOf id) desired := by
  refine toFixed_ofFixed (h.isBudget_countsAfter desired) ?_
  rw [length_countsAfter, length_fixedWeights]
  exact h.mul_le

/-- It can be set again. -/
theorem adjusted (desired : Float) : (t.adjusted p id desired).Adjustable p id := by
  refine ⟨onGrid_of_isUnitBudget (h.isBudget_countsAfter desired).isUnitBudget, ?_, ?_, ?_⟩
  · rw [length_entries_adjusted]
    exact h.two_le
  · rw [length_entries_adjusted]
    exact h.sq_mul_le
  · rw [h.ids_adjusted desired]
    exact h.mem

/-- A tier whose counts stay the same stays the same. -/
theorem adjusted_eq_self {desired : Float}
    (hcounts : countsAfter p (t.fixedWeights p) (t.ids.idxOf id) desired = t.fixedWeights p) :
    t.adjusted p id desired = t := by
  rw [Tier.adjusted, hcounts, h.ofFixed_fixedWeights]

/-- Nothing changes if the target and no other endpoint are to move a unit against each other. -/
theorem adjusted_eq_of_apart_le (desired : Float) (hnear : ∀ j < t.entries.length, j ≠ t.ids.idxOf id →
    apart (t.fixedWeights p) (t.ids.idxOf id) (value (clampUnit desired) * p.scale.size.toNat) j ≤
      1 - leeway t.entries.length p.scale.size.toNat) :
    t.adjusted p id desired = t := by
  have hlength := length_fixedWeights p t
  refine h.adjusted_eq_self (h.isBudget.countsAfter_eq_self h.idxOf_lt ?_ ?_ desired ?_)
  all_goals rw [hlength]
  · exact h.two_le
  · exact h.sq_mul_le
  · exact hnear

theorem adjusted_eq_of_abs_le (desired : Float) (hself : |countAt (t.fixedWeights p) (t.ids.idxOf id) -
    value (clampUnit desired) * p.scale.size.toNat| ≤
      (1 - leeway t.entries.length p.scale.size.toNat) / 2) :
    t.adjusted p id desired = t := by
  refine h.adjusted_eq_of_apart_le desired fun j hj hne => ?_
  rw [← length_fixedWeights p] at hj
  linarith [apart_le (value (clampUnit desired) * p.scale.size.toNat) hj hne]

/-- If they are to move more than a unit, one unit moves, and then nothing changes. -/
theorem exists_movesUnit (desired : Float) (hself : |countAt (t.fixedWeights p) (t.ids.idxOf id) -
      value (clampUnit desired) * p.scale.size.toNat| ≤ 11 / 10)
    {m : ℕ} (hm : m < t.entries.length) (hmt : m ≠ t.ids.idxOf id)
    (hfar : 1 + leeway t.entries.length p.scale.size.toNat <
      apart (t.fixedWeights p) (t.ids.idxOf id) (value (clampUnit desired) * p.scale.size.toNat) m) :
    (t.adjusted p id desired).adjusted p id desired = t.adjusted p id desired ∧
      ∃ j < t.entries.length, j ≠ t.ids.idxOf id ∧
        if value (clampUnit desired) * p.scale.size.toNat <
            countAt (t.fixedWeights p) (t.ids.idxOf id) then
          MovesUnit (t.fixedWeights p) ((t.adjusted p id desired).fixedWeights p)
            (t.ids.idxOf id) j
        else MovesUnit (t.fixedWeights p) ((t.adjusted p id desired).fixedWeights p) j
          (t.ids.idxOf id) := by
  have hlength := length_fixedWeights p t
  have hlen := h.two_le
  have hn := h.sq_mul_le
  rw [← hlength] at hlen hn hm hfar
  refine ⟨(h.adjusted desired).adjusted_eq_of_abs_le desired ?_, ?_⟩
  · rw [h.fixedWeights_adjusted, h.ids_adjusted, length_entries_adjusted, ← hlength]
    exact h.isBudget.abs_countAt_countsAfter_sub_le h.idxOf_lt hlen hn hself hm hmt hfar
  · rw [h.fixedWeights_adjusted, ← hlength]
    exact h.isBudget.exists_movesUnit h.idxOf_lt hlen hn hself hm hmt hfar

end Adjustable

/-- **A repeated request settles.** Once a weight has been set, setting it to the same unit changes
nothing if the target and no other entry are to move a unit against each other to what they were to
get: in particular if the target is half a unit off at most, or was set to a count of the scale. If
they are to move more than a unit, the second time moves one unit between the target and one other
entry, and the third time changes nothing. Only within the leeway of a unit none of this is said. -/
theorem repeated_request_settles (p : Policy) {t : Tier} (h : t.OnGrid p)
    (hlen : 2 ≤ t.entries.length) (hn : t.entries.length ^ 2 * p.scale.size.toNat ≤ 2 ^ 50)
    {id : String} (hid : id ∈ t.ids) (desired : Float) :
    let n := t.entries.length
    let i := t.ids.idxOf id
    let x := value (clampUnit desired) * p.scale.size.toNat
    let margin := leeway n p.scale.size.toNat
    ∃ t₁ t₂ t₃, t.setWeight p id desired = .ok t₁ ∧ t₁.setWeight p id desired = .ok t₂ ∧
      t₂.setWeight p id desired = .ok t₃ ∧ margin ≤ 1 / 250 ∧
      let counts := t₁.fixedWeights p
      ((∀ j < n, j ≠ i → apart counts i x j ≤ 1 - margin) → t₂ = t₁) ∧
      (|countAt counts i - x| ≤ (1 - margin) / 2 → t₂ = t₁) ∧
      (∀ k ≤ p.scale.size, clampUnit desired = p.scale.decode k → t₂ = t₁) ∧
      ∀ m < n, m ≠ i → 1 + margin < apart counts i x m → t₃ = t₂ ∧ ∃ j < n, j ≠ i ∧
        if x < countAt counts i then MovesUnit counts (t₂.fixedWeights p) i j
        else MovesUnit counts (t₂.fixedWeights p) j i := by
  intro n i x margin
  have h₀ : t.Adjustable p id := ⟨h, hlen, hn, hid⟩
  have h₁ := h₀.adjusted desired
  have h₂ := h₁.adjusted desired
  refine ⟨_, _, _, h₀.setWeight_eq desired, h₁.setWeight_eq desired, h₂.setWeight_eq desired,
    leeway_le p.scale.size.toNat_lt.le hn, ?_⟩
  have hlength := length_fixedWeights p t
  have hlen' : 2 ≤ (t.fixedWeights p).length := by rwa [hlength]
  have hn' : (t.fixedWeights p).length ^ 2 * p.scale.size.toNat ≤ 2 ^ 50 := by rwa [hlength]
  have hlen₁ : (t.adjusted p id desired).entries.length = n := length_entries_adjusted desired
  have hhalf := h₁.adjusted_eq_of_abs_le desired
  have hnear := h₁.adjusted_eq_of_apart_le desired
  have hfar := h₁.exists_movesUnit desired
  rw [h₀.ids_adjusted desired, hlen₁] at hhalf hnear hfar
  refine ⟨hnear, hhalf, fun k hk hdesired => hhalf ?_, fun m hm hmt => hfar ?_ hm hmt⟩
  · have hdecode := h₀.isBudget.abs_countsAfter_decode_sub_le h₀.idxOf_lt hlen' hn' hk hdesired
    rw [h₀.fixedWeights_adjusted]
    rwa [hlength] at hdecode
  · rw [h₀.fixedWeights_adjusted]
    exact h₀.isBudget.abs_countsAfter_target_sub_le h₀.idxOf_lt hlen' hn' desired

/-- Three endpoints of which the first is set to a third: the second time moves a unit. -/
theorem repeated_request_settles_third :
    let t : Tier := ⟨"t", (default : Policy).ofFixed [⟨"a", 5000⟩, ⟨"b", 4000⟩, ⟨"c", 1000⟩]⟩
    t.OnGrid default ∧ 2 ≤ t.entries.length ∧
      t.entries.length ^ 2 * (default : Policy).scale.size.toNat ≤ 2 ^ 50 ∧ "a" ∈ t.ids ∧
      ∃ t₁ t₂, t.setWeight default "a" (1 / 3) = .ok t₁ ∧
        t₁.setWeight default "a" (1 / 3) = .ok t₂ ∧ t₂.setWeight default "a" (1 / 3) = .ok t₂ ∧
        ∃ j ≠ 0, MovesUnit (t₁.fixedWeights default) (t₂.fixedWeights default) 0 j := by
  intro t
  have hgrid : t.OnGrid default := fun _ => ⟨_, ⟨rfl, rfl⟩, rfl⟩
  have hsmall : t.entries.length ^ 2 * (default : Policy).scale.size.toNat ≤ 2 ^ 50 := by decide
  have hmem : "a" ∈ t.ids := by decide
  have h₀ : t.Adjustable default "a" := ⟨hgrid, by decide, hsmall, hmem⟩
  have hfixed : t.fixedWeights default = [⟨"a", 5000⟩, ⟨"b", 4000⟩, ⟨"c", 1000⟩] :=
    toFixed_ofFixed ⟨rfl, rfl⟩ (by decide)
  obtain ⟨t₁, t₂, t₃, h₁, h₂, h₃, hleeway, -, -, -, hfar⟩ :=
    repeated_request_settles default hgrid (by decide) hsmall hmem (1 / 3)
  obtain rfl := Except.ok.inj ((h₀.setWeight_eq (1 / 3)).symm.trans h₁)
  have hcounts := h₀.fixedWeights_adjusted (1 / 3)
  rw [hfixed, show t.ids.idxOf "a" = 0 from rfl, countsAfter_third] at hcounts
  have hx := abs_le.1 abs_value_third_sub_le
  have hfirst : (countAt (ι := String) [⟨"a", 3334⟩, ⟨"b", 5333⟩, ⟨"c", 1333⟩] 0 : ℚ) = 3334 := rfl
  have hpart : heldPart (ι := String) [⟨"a", 3334⟩, ⟨"b", 5333⟩, ⟨"c", 1333⟩] 0 1 = 5333 / 6666 := rfl
  rw [hcounts, show t.ids.idxOf "a" = 0 from rfl,
    show ((default : Policy).scale.size.toNat : ℚ) = 10000 from rfl] at hfar
  have hlt : value (clampUnit (1 / 3)) * 10000 <
      countAt (ι := String) [⟨"a", 3334⟩, ⟨"b", 5333⟩, ⟨"c", 1333⟩] 0 := by
    rw [hfirst]
    norm_num at hx
    linarith
  obtain ⟨rfl, j, -, hj, hmoves⟩ := hfar 1 (by decide) (by decide) (by
    rw [apart, hpart, abs_of_pos (sub_pos.2 hlt), hfirst]
    norm_num at hx
    linarith)
  rw [if_pos hlt] at hmoves
  refine ⟨hgrid, by decide, hsmall, hmem, _, _, h₁, h₂, h₃, j, hj, ?_⟩
  rwa [hcounts]

/-- **A repeated request may change the weights**: the first of three endpoints is set to a third and
gets a unit too many, and when it is set to a third again the second one gets that unit. -/
theorem repeated_request_changes :
    let t : Tier := ⟨"t", (default : Policy).ofFixed [⟨"a", 5000⟩, ⟨"b", 4000⟩, ⟨"c", 1000⟩]⟩
    t.OnGrid default ∧ "a" ∈ t.ids ∧
      ∃ t₁ t₂, t.setWeight default "a" (1 / 3) = .ok t₁ ∧
        t₁.setWeight default "a" (1 / 3) = .ok t₂ ∧
        t₁.fixedWeights default = [⟨"a", 3334⟩, ⟨"b", 5333⟩, ⟨"c", 1333⟩] ∧
        t₂.fixedWeights default = [⟨"a", 3333⟩, ⟨"b", 5334⟩, ⟨"c", 1333⟩] ∧ t₂ ≠ t₁ := by
  intro t
  have hfixed : t.fixedWeights default = [⟨"a", 5000⟩, ⟨"b", 4000⟩, ⟨"c", 1000⟩] :=
    toFixed_ofFixed ⟨rfl, rfl⟩ (by decide)
  have h₀ : t.Adjustable default "a" :=
    ⟨fun _ => ⟨_, ⟨rfl, rfl⟩, rfl⟩, by decide, by decide, by decide⟩
  have h₁ := h₀.adjusted (1 / 3)
  have hfirst := h₀.fixedWeights_adjusted (1 / 3)
  rw [hfixed, show t.ids.idxOf "a" = 0 from rfl, countsAfter_third] at hfirst
  have hsecond := h₁.fixedWeights_adjusted (1 / 3)
  rw [hfirst, h₀.ids_adjusted, show t.ids.idxOf "a" = 0 from rfl, countsAfter_third_third] at hsecond
  refine ⟨h₀.onGrid, h₀.mem, _, _, h₀.setWeight_eq _, h₁.setWeight_eq _, hfirst, hsecond,
    fun heq => ?_⟩
  rw [heq, hfirst] at hsecond
  exact absurd hsecond (by decide)

end Tier

end TierBudget
