import TierBudget.Proofs.Plans
import TierBudget.Proofs.Session.Gate
/-!
# Clearing vacated endpoints

Endpoints without a count can be detached without any other count changing: the counts that are left
still add up to the scale, and a budget comes back from its units as it is. So detaching an endpoint
of count zero is filtering it out (`Tier.detach_of_count_eq_zero`), detaching several is filtering
them all out in whatever order (`Tier.detachAll_of_count_eq_zero`), and after the last one the gate
of a commit is open (`Tier.vacated_can_be_cleared`).
-/

namespace TierBudget

/-! ## Dropping what weighs nothing -/

theorem sum_map_filter_of_eq_zero {α : Type} {l : List α} {f : α → ℕ} {q : α → Bool}
    (h : ∀ a ∈ l, ¬ q a → f a = 0) : ((l.filter q).map f).sum = (l.map f).sum := by
  induction l with
  | nil => rfl
  | cons a l ih =>
    have ih := ih fun b hb => h b (List.mem_cons_of_mem a hb)
    by_cases ha : q a
    · rw [List.filter_cons_of_pos ha, List.map_cons, List.map_cons, List.sum_cons, List.sum_cons,
        ih]
    · rw [List.filter_cons_of_neg ha, List.map_cons, List.sum_cons, h a List.mem_cons_self ha,
        Nat.zero_add, ih]

/-- Where keys are distinct, erasing a key filters it out. -/
theorem eraseP_eq_filter {α β : Type} [DecidableEq β] {f : α → β} {l : List α}
    (h : (l.map f).Nodup) (b : β) : l.eraseP (f · = b) = l.filter (f · ≠ b) := by
  induction l with
  | nil => rfl
  | cons a l ih =>
    rw [List.map_cons, List.nodup_cons] at h
    by_cases ha : f a = b
    · have hrest : ∀ c ∈ l, f c ≠ b := fun c hc he =>
        h.1 (ha.trans he.symm ▸ List.mem_map_of_mem hc)
      rw [List.eraseP_cons_of_pos (by simpa using ha), List.filter_cons_of_neg (by simpa using ha),
        List.filter_eq_self.2 fun c hc => by simpa using hrest c hc]
    · rw [List.eraseP_cons_of_neg (by simpa using ha), List.filter_cons_of_pos (by simpa using ha),
        ih h.2]

namespace Policy

variable {ι : Type} {p : Policy} {ids : List ι} {fixed : List (FixedEntry ι)}

/-- Endpoints of count zero can be dropped from a budget. -/
theorem IsBudget.filter (h : p.IsBudget (fixed.map FixedEntry.id) fixed)
    (hids : (fixed.map FixedEntry.id).Nodup) {q : FixedEntry ι → Bool}
    (hq : ∀ e ∈ fixed, ¬ q e → ∃ w ∈ fixed, w.id = e.id ∧ w.count = 0) :
    p.IsBudget ((fixed.filter q).map FixedEntry.id) (fixed.filter q) := by
  refine ⟨rfl, (sum_map_filter_of_eq_zero fun e he hqe => ?_).trans h.sum_eq⟩
  obtain ⟨w, hw, hid, hzero⟩ := hq e he hqe
  rw [← eq_of_map_nodup hids hw he hid, hzero, UInt32.toNat_zero]

theorem IsBudget.filter_ne [DecidableEq ι] (h : p.IsBudget (fixed.map FixedEntry.id) fixed)
    (hids : (fixed.map FixedEntry.id).Nodup) {w : FixedEntry ι} (hw : w ∈ fixed)
    (hzero : w.count = 0) :
    p.IsBudget ((fixed.filter (·.id ≠ w.id)).map FixedEntry.id) (fixed.filter (·.id ≠ w.id)) :=
  h.filter hids fun e _ hne => ⟨w, hw, (by simpa using hne : e.id = w.id).symm, hzero⟩

end Policy

theorem length_filter_mul_le {α : Type} {l : List α} {m n : ℕ} (h : l.length * m ≤ n)
    (q : α → Bool) : (l.filter q).length * m ≤ n :=
  (Nat.mul_le_mul_right m (l.length_filter_le q)).trans h

namespace Tier

variable {p : Policy} {t : Tier} {tierId : String} {fixed : List (FixedEntry String)}

/-! ## Detaching one endpoint -/

/-- **Detaching an endpoint of count zero** leaves the units of the others as they are. -/
theorem detach_of_count_eq_zero (h : p.IsBudget (fixed.map FixedEntry.id) fixed)
    (hids : (fixed.map FixedEntry.id).Nodup) (hn : fixed.length * p.scale.size.toNat ≤ 2 ^ 50)
    {w : FixedEntry String} (hw : w ∈ fixed) (hzero : w.count = 0) :
    (⟨tierId, p.ofFixed fixed⟩ : Tier).detach p w.id =
      .ok ⟨tierId, p.ofFixed (fixed.filter (·.id ≠ w.id))⟩ := by
  have hmem : w.id ∈ (p.ofFixed fixed).map Entry.id := by
    rw [Policy.map_id_ofFixed]
    exact List.mem_map_of_mem hw
  have herase : (p.ofFixed fixed).eraseP (·.id = w.id) =
      p.ofFixed (fixed.filter (·.id ≠ w.id)) := by
    rw [Policy.ofFixed, List.eraseP_map]
    exact congrArg p.ofFixed (eraseP_eq_filter hids w.id)
  have hcounts := Policy.toFixed_ofFixed (h.filter_ne hids hw hzero) (length_filter_mul_le hn _)
  rw [detach, p.detach_of_mem hmem, herase, Policy.normalize, hcounts]

/-! ## Detaching several -/

/-- The tier without some endpoints, which are detached one by one. -/
def detachAll (p : Policy) (t : Tier) (ids : List String) : Except TierError Tier :=
  ids.foldlM (fun t id => t.detach p id) t

/-- **Endpoints of count zero are filtered out**, in whatever order they are detached. -/
theorem detachAll_of_count_eq_zero {done : List String}
    (h : p.IsBudget (fixed.map FixedEntry.id) fixed) (hids : (fixed.map FixedEntry.id).Nodup)
    (hn : fixed.length * p.scale.size.toNat ≤ 2 ^ 50) (hdone : done.Nodup)
    (hzero : ∀ id ∈ done, ∃ w ∈ fixed, w.id = id ∧ w.count = 0) :
    detachAll p ⟨tierId, p.ofFixed fixed⟩ done =
      .ok ⟨tierId, p.ofFixed (fixed.filter (·.id ∉ done))⟩ := by
  induction done generalizing fixed with
  | nil =>
    rw [List.filter_eq_self.2 fun _ _ => by simp]
    rfl
  | cons id done ih =>
    rw [List.nodup_cons] at hdone
    obtain ⟨w, hw, rfl, hcount⟩ := hzero id List.mem_cons_self
    -- Those that are still to go are among those that are left, as none goes twice.
    have hleft : ∀ id ∈ done, ∃ v ∈ fixed.filter (·.id ≠ w.id), v.id = id ∧ v.count = 0 := by
      intro id hid
      obtain ⟨v, hv, rfl, hv0⟩ := hzero id (List.mem_cons_of_mem _ hid)
      have hne : v.id ≠ w.id := fun he => hdone.1 (he ▸ hid)
      exact ⟨v, List.mem_filter.2 ⟨hv, by simpa using hne⟩, rfl, hv0⟩
    have hrest := ih (h.filter_ne hids hw hcount) (List.filter_sublist.map _ |>.nodup hids)
      (length_filter_mul_le hn _) hdone.2 hleft
    rw [detachAll, List.foldlM_cons, detach_of_count_eq_zero h hids hn hw hcount]
    refine hrest.trans ?_
    rw [List.filter_filter]
    congr 3
    refine List.filter_congr fun e _ => ?_
    simp [Bool.and_comm]

/-! ## Clearing a tier -/

theorem onGrid_ofFixed (h : p.IsBudget (fixed.map FixedEntry.id) fixed) :
    (⟨tierId, p.ofFixed fixed⟩ : Tier).OnGrid p := onGrid_of_isUnitBudget h.isUnitBudget

theorem length_ofFixed_mul_le (hn : fixed.length * p.scale.size.toNat ≤ 2 ^ 50) :
    (p.ofFixed fixed).length * p.scale.size.toNat ≤ 2 ^ 50 := by
  rwa [Policy.ofFixed, List.length_map]

theorem weightless_ofFixed (h : p.IsBudget (fixed.map FixedEntry.id) fixed)
    (hn : fixed.length * p.scale.size.toNat ≤ 2 ^ 50) :
    (⟨tierId, p.ofFixed fixed⟩ : Tier).weightless p =
      (fixed.filter (·.count = 0)).map FixedEntry.id := by
  rw [weightless, fixedWeights, Policy.toFixed_ofFixed h hn]

/-- An endpoint is vacated if its count is zero. -/
theorem mem_vacated_ofFixed (h : p.IsBudget (fixed.map FixedEntry.id) fixed)
    (hn : fixed.length * p.scale.size.toNat ≤ 2 ^ 50) {id : String} :
    id ∈ (⟨tierId, p.ofFixed fixed⟩ : Tier).vacated ↔ ∃ w ∈ fixed, w.id = id ∧ w.count = 0 := by
  rw [(onGrid_ofFixed h).vacated_eq (length_ofFixed_mul_le hn), weightless_ofFixed h hn]
  simp [and_assoc, and_comm]

/-- A tier with a count for every endpoint passes every check of a commit. -/
theorem OnGrid.passes_of_weightless_eq_nil {u : Tier} (h : u.OnGrid p)
    (hn : u.entries.length * p.scale.size.toNat ≤ 2 ^ 50) (hnone : u.weightless p = []) :
    u.vacated = [] ∧ u.isSettled? p.scale = some true ∧
      ∀ s : Session, s.stage = .dirty u →
        s.beginCommit p true = .ok (.between p s.confirmed u, { s with stage := .saving u }) := by
  have hgate := Session.requireSettled_of_onGrid h hn
  rw [if_pos hnone] at hgate
  refine ⟨?_, ?_, fun s hdirty => Session.beginCommit_eq_ok.2 ⟨u, hdirty, hgate, rfl, rfl⟩⟩
  · rw [h.vacated_eq hn, hnone]
  · rw [h.isSettled?_eq hn, hnone, decide_eq_true rfl]

/-- What is not vacated has a count. -/
theorem filter_not_mem_vacated (h : p.IsBudget (fixed.map FixedEntry.id) fixed)
    (hids : (fixed.map FixedEntry.id).Nodup) (hn : fixed.length * p.scale.size.toNat ≤ 2 ^ 50)
    {order : List String} (horder : order.Perm (⟨tierId, p.ofFixed fixed⟩ : Tier).vacated) :
    fixed.filter (·.id ∉ order) = fixed.filter (·.count ≠ 0) := by
  refine List.filter_congr fun w hw => decide_eq_decide.2 (not_congr ?_)
  rw [horder.mem_iff, mem_vacated_ofFixed h hn]
  constructor
  · rintro ⟨v, hv, hid, hzero⟩
    rwa [← eq_of_map_nodup hids hv hw hid]
  · exact fun hzero => ⟨w, hw, rfl, hzero⟩

/-- **Vacated endpoints can always be cleared.** The units of a tier stand for counts that add up to
the scale. Its vacated endpoints are detached one by one in any order: every time this succeeds, and
the counts of the others are what they were. In the end no endpoint is vacated, and the tier is
settled, so a commit that asks for that begins. -/
theorem vacated_can_be_cleared (p : Policy) (tierId : String) (fixed : List (FixedEntry String))
    (h : p.IsBudget (fixed.map FixedEntry.id) fixed) (hids : (fixed.map FixedEntry.id).Nodup)
    (hn : fixed.length * p.scale.size.toNat ≤ 2 ^ 50) (order : List String)
    (horder : order.Perm (⟨tierId, p.ofFixed fixed⟩ : Tier).vacated) :
    let t : Tier := ⟨tierId, p.ofFixed fixed⟩
    (∀ done, done <+: order → ∃ u, t.detachAll p done = .ok u ∧
      u.fixedWeights p = fixed.filter (·.id ∉ done)) ∧
    ∃ u, t.detachAll p order = .ok u ∧ u.fixedWeights p = fixed.filter (·.count ≠ 0) ∧
      u.vacated = [] ∧ u.isSettled? p.scale = some true ∧
      ∀ s : Session, s.stage = .dirty u →
        s.beginCommit p true = .ok (.between p s.confirmed u, { s with stage := .saving u }) := by
  have hnodup : order.Nodup := by
    rw [horder.nodup_iff, (onGrid_ofFixed h).vacated_eq (length_ofFixed_mul_le hn),
      weightless_ofFixed h hn]
    exact (List.filter_sublist.map _).nodup hids
  have hzero : ∀ id ∈ order, ∃ w ∈ fixed, w.id = id ∧ w.count = 0 := fun id hid =>
    (mem_vacated_ofFixed h hn).1 (horder.mem_iff.1 hid)
  have hdetach : ∀ done, done <+: order → detachAll p ⟨tierId, p.ofFixed fixed⟩ done =
      .ok ⟨tierId, p.ofFixed (fixed.filter (·.id ∉ done))⟩ := fun done hdone =>
    detachAll_of_count_eq_zero h hids hn (hdone.sublist.nodup hnodup) fun id hid =>
      hzero id (hdone.subset hid)
  have hleft : ∀ done, done <+: order →
      p.IsBudget ((fixed.filter (·.id ∉ done)).map FixedEntry.id) (fixed.filter (·.id ∉ done)) :=
    fun done hdone => h.filter hids fun e _ hmem =>
      hzero e.id (hdone.subset (by simpa using hmem))
  refine ⟨fun done hdone => ⟨_, hdetach done hdone,
    Policy.toFixed_ofFixed (hleft done hdone) (length_filter_mul_le hn _)⟩, ?_⟩
  have hb := hleft order List.prefix_rfl
  have hall := hdetach order List.prefix_rfl
  rw [filter_not_mem_vacated h hids hn horder] at hb hall
  have hn' := length_filter_mul_le hn (·.count ≠ 0)
  have hnone : (⟨tierId, p.ofFixed (fixed.filter (·.count ≠ 0))⟩ : Tier).weightless p = [] := by
    rw [weightless_ofFixed hb hn', List.filter_filter]
    simp
  exact ⟨_, hall, Policy.toFixed_ofFixed hb hn',
    (onGrid_ofFixed hb).passes_of_weightless_eq_nil (length_ofFixed_mul_le hn') hnone⟩

/-- The last endpoint goes first, and the middle one is left with the whole. -/
theorem vacated_can_be_cleared_lone :
    let t : Tier := ⟨"t", [⟨"a", 0⟩, ⟨"b", 1⟩, ⟨"c", 0⟩]⟩
    t.vacated = ["a", "c"] ∧ ∃ u, t.detachAll default ["c", "a"] = .ok u ∧
      u.fixedWeights default = [⟨"b", 10000⟩] ∧
      u.isSettled? (default : Policy).scale = some true := by
  intro t
  let fixed : List (FixedEntry String) := [⟨"a", 0⟩, ⟨"b", 10000⟩, ⟨"c", 0⟩]
  have hunits : (⟨"t", (default : Policy).ofFixed fixed⟩ : Tier) = t := by decide +kernel
  have hvacated : t.vacated = ["a", "c"] := by decide +kernel
  have hperm : ["c", "a"].Perm (⟨"t", (default : Policy).ofFixed fixed⟩ : Tier).vacated := by
    rw [hunits, hvacated]
    exact .swap _ _ _
  obtain ⟨-, u, hall, hcounts, -, hsettled, -⟩ := vacated_can_be_cleared default "t" fixed
    ⟨rfl, by decide⟩ (by decide) (by decide) ["c", "a"] hperm
  rw [hunits] at hall
  exact ⟨hvacated, u, hall, hcounts, hsettled⟩

end Tier

end TierBudget
