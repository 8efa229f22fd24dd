import TierBudget.Policy
import TierBudget.Proofs.Apportionment.Stepwise
/-!
# Every operation keeps the budget

Counts are a budget of some ids (`Policy.IsBudget`) if they stand under these ids in this order and
add up to the scale; units are one (`Policy.IsUnitBudget`) if they are decoded from such counts. All
operations of a policy end in `Policy.normalize`, so one fact carries them: whatever the units are,
`Policy.toFixed` makes a budget of them (`Policy.isBudget_toFixed`).
-/

namespace TierBudget

open Apportionment

/-! ## Apportionment -/

@[simp] theorem length_apportion (scale : Scale) (shares : List Float) :
    (apportion scale shares).length = shares.length := by simp [apportion]

/-- The counts as whole numbers, before they are stored as words. -/
theorem map_toNat_apportion {scale : Scale} {shares : List Float} (h : shares ≠ []) :
    (apportion scale shares).map UInt32.toNat =
      settle scale.size.toNat (shares.map (part scale)) := by
  have hsum : (settle scale.size.toNat (shares.map (part scale))).sum = scale.size.toNat :=
    sum_settle scale.size_toNat_pos (by simpa using h) fun p hp => (floor_lt_of_mem_map_part hp).le
  rw [apportion, List.map_map]
  refine (List.map_congr_left fun n hn => ?_).trans (List.map_id _)
  have hle := List.single_le_sum (fun _ _ => Nat.zero_le _) n hn
  exact toNat_ofNat_of_lt (by have := scale.size.toNat_lt; omega)

/-- **Apportioned counts add up to the scale.** -/
theorem sum_apportion {scale : Scale} {shares : List Float} (h : shares ≠ []) :
    ((apportion scale shares).map UInt32.toNat).sum = scale.size.toNat := by
  rw [map_toNat_apportion h]
  exact sum_settle scale.size_toNat_pos (by simpa using h)
    fun p hp => (floor_lt_of_mem_map_part hp).le

namespace Policy

variable {ι : Type}

@[simp] theorem length_shares (units : List Float) : (shares units).length = units.length := by
  unfold shares
  dsimp only
  split <;> simp

/-! ## Budgets -/

/-- Counts under the given ids, in their order, that add up to the scale. -/
structure IsBudget (p : Policy) (ids : List ι) (fixed : List (FixedEntry ι)) : Prop where
  ids_eq : fixed.map FixedEntry.id = ids
  sum_eq : (fixed.map fun e => e.count.toNat).sum = p.scale.size.toNat

/-- Units that are decoded from such counts. -/
def IsUnitBudget (p : Policy) (ids : List ι) (entries : List (Entry ι)) : Prop :=
  ∃ fixed, p.IsBudget ids fixed ∧ entries = p.ofFixed fixed

theorem IsBudget.isUnitBudget {p : Policy} {ids : List ι} {fixed : List (FixedEntry ι)}
    (h : p.IsBudget ids fixed) : p.IsUnitBudget ids (p.ofFixed fixed) := ⟨fixed, h, rfl⟩

theorem count_le_of_sum_le {l : List (FixedEntry ι)} {n : ℕ}
    (h : (l.map fun e => e.count.toNat).sum ≤ n) {e : FixedEntry ι} (he : e ∈ l) :
    e.count.toNat ≤ n :=
  (List.single_le_sum (fun _ _ => Nat.zero_le _) _
    (List.mem_map_of_mem (f := fun e : FixedEntry ι => e.count.toNat) he)).trans h

/-- No count of a budget is above the scale. -/
theorem IsBudget.count_le {p : Policy} {ids : List ι} {fixed : List (FixedEntry ι)}
    (h : p.IsBudget ids fixed) {e : FixedEntry ι} (he : e ∈ fixed) :
    e.count.toNat ≤ p.scale.size.toNat := count_le_of_sum_le h.sum_eq.le he

theorem IsBudget.count_le_size {p : Policy} {ids : List ι} {fixed : List (FixedEntry ι)}
    (h : p.IsBudget ids fixed) {e : FixedEntry ι} (he : e ∈ fixed) : e.count ≤ p.scale.size :=
  UInt32.le_iff_toNat_le.2 (h.count_le he)

@[simp] theorem map_id_ofFixed (p : Policy) (fixed : List (FixedEntry ι)) :
    (p.ofFixed fixed).map Entry.id = fixed.map FixedEntry.id := by simp [ofFixed]

theorem IsUnitBudget.map_id {p : Policy} {ids : List ι} {entries : List (Entry ι)}
    (h : p.IsUnitBudget ids entries) : entries.map Entry.id = ids := by
  obtain ⟨fixed, hfixed, rfl⟩ := h
  rw [map_id_ofFixed, hfixed.ids_eq]

/-! ## Normalizing -/

@[simp] theorem map_id_toFixed (p : Policy) (entries : List (Entry ι)) :
    (p.toFixed entries).map FixedEntry.id = entries.map Entry.id := by
  refine List.ext_getElem ?_ fun i _ _ => ?_ <;> simp [toFixed]

theorem map_count_toFixed (p : Policy) (entries : List (Entry ι)) :
    (p.toFixed entries).map FixedEntry.count =
      apportion p.scale (shares (entries.map Entry.unit)) := by
  refine List.ext_getElem ?_ fun i _ _ => ?_ <;> simp [toFixed]

@[simp] theorem length_toFixed (p : Policy) (entries : List (Entry ι)) :
    (p.toFixed entries).length = entries.length := by simp [toFixed]

@[simp] theorem map_id_normalize (p : Policy) (entries : List (Entry ι)) :
    (p.normalize entries).map Entry.id = entries.map Entry.id := by simp [normalize]

@[simp] theorem normalize_nil (p : Policy) : p.normalize ([] : List (Entry ι)) = [] := rfl

/-- **Any units become a budget**, NaN, infinities and negative numbers included. -/
theorem isBudget_toFixed (p : Policy) {entries : List (Entry ι)} (h : entries ≠ []) :
    p.IsBudget (entries.map Entry.id) (p.toFixed entries) := by
  refine ⟨p.map_id_toFixed entries, ?_⟩
  have hshares : shares (entries.map Entry.unit) ≠ [] := by
    rw [← List.length_pos_iff, length_shares, List.length_map]
    exact List.length_pos_of_ne_nil h
  rw [← sum_apportion hshares, ← map_count_toFixed, List.map_map]
  rfl

theorem isUnitBudget_normalize (p : Policy) {entries : List (Entry ι)} (h : entries ≠ []) :
    p.IsUnitBudget (entries.map Entry.id) (p.normalize entries) :=
  (p.isBudget_toFixed h).isUnitBudget

theorem isUnitBudget_evenSplit (p : Policy) {ids : List ι} (h : ids ≠ []) :
    p.IsUnitBudget ids (p.evenSplit ids) := by
  have hb := @isUnitBudget_normalize ι p (ids.map fun id => ⟨id, 1 / .ofNat ids.length⟩)
    (by simpa using h)
  rwa [List.map_map, show Entry.id ∘ _ = id from rfl, List.map_id] at hb

theorem isUnitBudget_ofRaw (p : Policy) {raw : List (RawEntry ι)} (h : raw ≠ []) :
    p.IsUnitBudget (raw.map RawEntry.id) (p.ofRaw raw) := by
  have hb := @isUnitBudget_normalize ι p
    (raw.map fun r => ⟨r.id, r.weight.toUnit p.percentEpsilon⟩) (by simpa using h)
  rwa [List.map_map] at hb

/-! ## Detaching and rebalancing -/

@[simp] theorem map_id_redistribute (entries : List (Entry ι)) (i : ℕ) (unit : Float) :
    (redistribute entries i unit).map Entry.id = entries.map Entry.id := by
  refine List.ext_getElem ?_ fun j _ _ => ?_ <;> simp [redistribute]

theorem isBudget_lone (p : Policy) (id : ι) : p.IsBudget [id] [⟨id, p.scale.size⟩] :=
  ⟨rfl, by simp⟩

/-- A budget of one id is the whole scale. -/
theorem IsBudget.eq_lone {p : Policy} {id : ι} {fixed : List (FixedEntry ι)}
    (h : p.IsBudget [id] fixed) : fixed = [⟨id, p.scale.size⟩] := by
  obtain ⟨w, rfl⟩ : ∃ w, fixed = [w] :=
    List.length_eq_one_iff.1 (by simpa using congrArg List.length h.ids_eq)
  have hid : w.id = id := by simpa using h.ids_eq
  have hcount : w.count = p.scale.size := UInt32.toNat_inj.1 (by simpa using h.sum_eq)
  rw [← hid, ← hcount]

variable [DecidableEq ι]

theorem any_id_eq {entries : List (Entry ι)} {target : ι} :
    entries.any (·.id = target) = true ↔ target ∈ entries.map Entry.id := by
  simp [List.mem_map]

theorem detach_of_mem (p : Policy) {entries : List (Entry ι)} {target : ι}
    (h : target ∈ entries.map Entry.id) :
    p.detach entries target = some (p.normalize (entries.eraseP (·.id = target))) := by
  rw [detach, if_pos (any_id_eq.2 h)]

theorem detach_eq_none_iff (p : Policy) {entries : List (Entry ι)} {target : ι} :
    p.detach entries target = none ↔ target ∉ entries.map Entry.id := by
  rw [detach, ← any_id_eq]
  split <;> simp_all

/-- The ids without the first entry of the target. -/
theorem map_id_eraseP (entries : List (Entry ι)) (target : ι) :
    (entries.eraseP (·.id = target)).map Entry.id = (entries.map Entry.id).erase target := by
  rw [List.erase_eq_eraseP', List.eraseP_map]
  congr 2

theorem findIdx?_id_eq_none {entries : List (Entry ι)} {target : ι} :
    entries.findIdx? (·.id = target) = none ↔ target ∉ entries.map Entry.id := by
  simp [List.findIdx?_eq_none_iff]

theorem rebalance_of_not_mem (p : Policy) {entries : List (Entry ι)} {target : ι} (desired : Float)
    (h : target ∉ entries.map Entry.id) : p.rebalance entries target desired = [] := by
  unfold rebalance
  rw [findIdx?_id_eq_none.2 h]

theorem rebalance_lone (p : Policy) (e : Entry ι) (desired : Float) :
    p.rebalance [e] e.id desired = [⟨e.id, 1⟩] := by simp [rebalance, List.findIdx?_cons]

theorem exists_findIdx? {entries : List (Entry ι)} {target : ι}
    (h : target ∈ entries.map Entry.id) : ∃ i, entries.findIdx? (·.id = target) = some i :=
  Option.ne_none_iff_exists'.1 (mt findIdx?_id_eq_none.1 (not_not_intro h))

/-- Rebalancing several entries normalizes the redistributed ones. -/
theorem rebalance_eq (p : Policy) {entries : List (Entry ι)} {target : ι} {i : ℕ}
    (desired : Float) (hi : entries.findIdx? (·.id = target) = some i) (h : entries.length ≠ 1) :
    p.rebalance entries target desired = p.normalize (redistribute entries i desired) := by
  unfold rebalance
  rw [hi]
  split
  · next heq => cases heq
  · next e heq => exact absurd rfl h
  · next j heq _ =>
    cases heq
    rfl

/-- **An attached target gets its budget.** A lone entry is decoded from the whole scale. -/
theorem isUnitBudget_rebalance (p : Policy) {entries : List (Entry ι)} {target : ι}
    (desired : Float) (h : target ∈ entries.map Entry.id) :
    p.IsUnitBudget (entries.map Entry.id) (p.rebalance entries target desired) := by
  by_cases hlen : entries.length = 1
  · obtain ⟨e, rfl⟩ := List.length_eq_one_iff.1 hlen
    obtain rfl : target = e.id := by simpa using h
    have hlone := (p.isBudget_lone e.id).isUnitBudget
    rwa [ofFixed, List.map_singleton, p.scale.decode_size, ← p.rebalance_lone e desired] at hlone
  · obtain ⟨i, hi⟩ := exists_findIdx? h
    have hids := map_id_redistribute entries i desired
    have hne : redistribute entries i desired ≠ [] := fun hnil => by
      rw [← hids, hnil] at h
      cases h
    rw [p.rebalance_eq desired hi hlen, ← hids]
    exact p.isUnitBudget_normalize hne

theorem rebalance_eq_nil_iff (p : Policy) {entries : List (Entry ι)} {target : ι}
    (desired : Float) :
    p.rebalance entries target desired = [] ↔ target ∉ entries.map Entry.id := by
  refine ⟨fun hnil hmem => ?_, p.rebalance_of_not_mem desired⟩
  have hids := (p.isUnitBudget_rebalance desired hmem).map_id
  rw [hnil] at hids
  exact List.ne_nil_of_mem hmem hids.symm

/-- **Budgets are exact.** Whatever doubles and ids an operation gets, its counts add up to the
scale, and no word of the loops that find them leaves its range. -/
theorem operations_keep_budget (p : Policy) (entries : List (Entry ι)) (ids : List ι)
    (raw : List (RawEntry ι)) (target : ι) (desired : Float) :
    (∀ shares, apportionStepwise? p.scale shares = some (apportion p.scale shares)) ∧
    (entries ≠ [] → p.IsBudget (entries.map Entry.id) (p.toFixed entries) ∧
      p.normalize entries = p.ofFixed (p.toFixed entries)) ∧
    (ids ≠ [] → p.IsUnitBudget ids (p.evenSplit ids)) ∧
    (raw ≠ [] → p.IsUnitBudget (raw.map RawEntry.id) (p.ofRaw raw)) ∧
    (p.detach entries target = none ↔ target ∉ entries.map Entry.id) ∧
    (∀ rest, p.detach entries target = some rest →
      let left := (entries.map Entry.id).erase target
      if left = [] then rest = [] else p.IsUnitBudget left rest) ∧
    (p.rebalance entries target desired = [] ↔ target ∉ entries.map Entry.id) ∧
    (target ∈ entries.map Entry.id →
      p.IsUnitBudget (entries.map Entry.id) (p.rebalance entries target desired)) ∧
    (∀ e : Entry ι, p.rebalance [e] e.id desired = [⟨e.id, 1⟩] ∧
      p.scale.decode p.scale.size = 1) := by
  refine ⟨apportionStepwise?_eq p.scale, fun h => ⟨p.isBudget_toFixed h, rfl⟩,
    p.isUnitBudget_evenSplit, p.isUnitBudget_ofRaw, p.detach_eq_none_iff, fun rest hrest => ?_,
    p.rebalance_eq_nil_iff desired, p.isUnitBudget_rebalance desired,
    fun e => ⟨p.rebalance_lone e desired, p.scale.decode_size⟩⟩
  have hmem : target ∈ entries.map Entry.id := by
    by_contra hno
    rw [p.detach_eq_none_iff.2 hno] at hrest
    cases hrest
  rw [p.detach_of_mem hmem] at hrest
  cases hrest
  have hids := map_id_eraseP entries target
  dsimp only
  split
  · next hleft =>
    rw [hleft, List.map_eq_nil_iff] at hids
    rw [hids, normalize_nil]
  · next hleft =>
    rw [← hids]
    exact p.isUnitBudget_normalize fun hnil => hleft (by rw [← hids, hnil, List.map_nil])

/-- Two endpoints whose units do not add up, one of them rebalanced. -/
theorem operations_keep_budget_two :
    let entries : List (Entry String) := [⟨"a", 0.5⟩, ⟨"b", 0.25⟩]
    entries ≠ [] ∧ "a" ∈ entries.map Entry.id ∧
      (default : Policy).IsBudget ["a", "b"] ((default : Policy).toFixed entries) ∧
      (default : Policy).IsUnitBudget ["a", "b"]
        ((default : Policy).rebalance entries "a" 0.75) := by
  intro entries
  have hne : entries ≠ [] := List.cons_ne_nil _ _
  have hmem : "a" ∈ entries.map Entry.id := List.mem_cons_self
  obtain ⟨-, hfixed, -, -, -, -, -, hrebalance, -⟩ :=
    operations_keep_budget default entries ["a"] [⟨"a", ⟨1, none⟩⟩] "a" 0.75
  exact ⟨hne, hmem, (hfixed hne).1, hrebalance hmem⟩

end Policy

end TierBudget
