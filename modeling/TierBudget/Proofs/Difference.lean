import Mathlib.Logic.Function.Basic
import TierBudget.Proofs.Coordinator.Moves
import TierBudget.Proofs.InStep
/-!
# A plan is a difference

The counts of a tier are a map from endpoints to counts (`Tier.counts`), and a plan changes such a
map: it drops the removed endpoints, then sets the updated ones (`CommitPlan.applyTo`). The plan
between two tiers leads from the counts of the one to those of the other
(`CommitPlan.applyTo_between`) and lists nothing that stays as it is
(`CommitPlan.updates_between_eq`, `CommitPlan.removed_between_eq`).
-/

namespace TierBudget

/-- The count of each endpoint of a tier. -/
def Tier.counts (p : Policy) (t : Tier) (id : String) : Option Count :=
  ((t.fixedWeights p).find? (·.id = id)).map FixedEntry.count

namespace CommitPlan

/-- Counts after an update. -/
def setCount (counts : String → Option Count) (u : FixedEntry String) : String → Option Count :=
  Function.update counts u.id (some u.count)

/-- Counts after a plan: without the removed endpoints, and with the updates one after the other. -/
def applyTo (plan : CommitPlan) (counts : String → Option Count) : String → Option Count :=
  plan.updates.foldl setCount fun id => if id ∈ plan.removed then none else counts id

end CommitPlan

/-! ## Counts -/

namespace Tier

variable {p : Policy} {t : Tier} {id : String}

theorem mem_of_counts {n : Count} (h : t.counts p id = some n) : ⟨id, n⟩ ∈ t.fixedWeights p := by
  obtain ⟨w, hw, rfl⟩ := Option.map_eq_some_iff.1 h
  have hid : w.id = id := by simpa using List.find?_some hw
  rw [← hid]
  exact List.mem_of_find?_eq_some hw

/-- An endpoint has a count if it is attached. -/
theorem counts_eq_none_iff : t.counts p id = none ↔ id ∉ t.ids := by
  rw [counts, Option.map_eq_none_iff, List.find?_eq_none, ← map_id_fixedWeights p t, List.mem_map]
  simp

/-- Where ids are distinct, the counts are those that are listed. -/
theorem counts_eq_some_iff (h : t.ids.Nodup) {n : Count} :
    t.counts p id = some n ↔ ⟨id, n⟩ ∈ t.fixedWeights p := by
  refine ⟨mem_of_counts, fun hmem => ?_⟩
  have hattached : id ∈ t.ids := InStep.mem_ids_of_fixedWeight hmem
  cases hc : t.counts p id with
  | none => exact absurd hattached (counts_eq_none_iff.1 hc)
  | some m =>
    have hsame := eq_of_map_nodup (InStep.nodup_fixedWeights h) (mem_of_counts hc) hmem rfl
    exact congrArg some (congrArg FixedEntry.count hsame)

theorem countOf?_fixedWeights (h : t.ids.Nodup) (id : String) :
    CommitPlan.countOf? (t.fixedWeights p) id = t.counts p id := by
  apply Option.ext
  intro n
  rw [counts_eq_some_iff h]
  constructor
  · exact CommitPlan.mem_of_countOf?
  · exact fun hmem => CommitPlan.countOf?_eq_some (InStep.nodup_fixedWeights h) hmem

/-- Counts do not depend on the order of the endpoints. -/
theorem counts_eq_of_perm {u : Tier} (h : t.ids.Nodup)
    (hperm : (u.fixedWeights p).Perm (t.fixedWeights p)) : u.counts p = t.counts p := by
  have hu : u.ids.Nodup := by
    rw [← map_id_fixedWeights p u, (hperm.map FixedEntry.id).nodup_iff, map_id_fixedWeights]
    exact h
  funext id
  apply Option.ext
  intro n
  rw [counts_eq_some_iff hu, counts_eq_some_iff h, hperm.mem_iff]

end Tier

/-! ## What a plan lists -/

namespace CommitPlan

variable {p : Policy} {confirmed staged : Tier}

/-- **The updates**: the staged endpoints, in their order, whose counts differ. -/
theorem updates_between_eq (hc : confirmed.ids.Nodup) (hs : staged.ids.Nodup) :
    (between p confirmed staged).updates = staged.ids.filterMap fun id =>
      if confirmed.counts p id = staged.counts p id then none
      else (staged.counts p id).map (FixedEntry.mk id) := by
  rw [← Tier.map_id_fixedWeights p staged, List.filterMap_map]
  change List.filter _ _ = _
  rw [← List.filterMap_eq_filter]
  refine List.filterMap_congr fun w hw => ?_
  have hstaged : staged.counts p w.id = some w.count := (Tier.counts_eq_some_iff hs).2 hw
  simp only [Function.comp_apply, Tier.countOf?_fixedWeights hc, hstaged]
  by_cases hsame : confirmed.counts p w.id = some w.count
  · simp [hsame]
  · simp [hsame]

/-- **The removed endpoints**: the confirmed ones, in their order, that are not staged. -/
theorem removed_between_eq (p : Policy) (confirmed staged : Tier) :
    (between p confirmed staged).removed =
      confirmed.ids.filter fun id => (staged.counts p id).isNone := by
  refine List.filter_congr fun id _ => ?_
  have hcontains : staged.contains id = true ↔ id ∈ staged.ids := by simp [Tier.contains]
  rw [Bool.eq_iff_iff, Option.isNone_iff_eq_none, Tier.counts_eq_none_iff, ← hcontains]
  simp

/-- Nothing is removed and updated at once. -/
theorem not_mem_removed_of_mem_updates {u : FixedEntry String}
    (h : u ∈ (between p confirmed staged).updates) : u.id ∉ (between p confirmed staged).removed := by
  intro hrem
  exact (mem_removed_between.1 hrem).2 (InStep.mem_ids_of_fixedWeight (mem_updates_between.1 h).1)

/-! ## What a plan does -/

theorem countOf?_cons (u : FixedEntry String) (rest : List (FixedEntry String)) (id : String) :
    countOf? (u :: rest) id =
      (countOf? rest id).or (if u.id = id then some u.count else none) := by
  rw [countOf?, List.reverse_cons, List.find?_append, countOf?]
  by_cases h : u.id = id
  · simp [h]
  · simp [h]

/-- Of several updates of an endpoint the last one counts. -/
theorem foldl_setCount (updates : List (FixedEntry String)) (m : String → Option Count)
    (id : String) : updates.foldl setCount m id = (countOf? updates id).or (m id) := by
  induction updates generalizing m with
  | nil => rfl
  | cons u rest ih =>
    rw [List.foldl_cons, ih, countOf?_cons, Option.or_assoc, setCount]
    congr 1
    by_cases h : u.id = id
    · subst h
      simp
    · rw [Function.update_of_ne (Ne.symm h), if_neg h, Option.none_or]

theorem countOf?_updates_eq_none {id : String} (h : id ∉ staged.ids) :
    countOf? (between p confirmed staged).updates id = none := by
  cases hc : countOf? (between p confirmed staged).updates id with
  | none => rfl
  | some n =>
    have hmem := (mem_updates_between.1 (mem_of_countOf? hc)).1
    exact absurd (InStep.mem_ids_of_fixedWeight hmem) h

/-- **A plan leads from the counts of the confirmed tier to those of the staged one.** -/
theorem applyTo_between (hc : confirmed.ids.Nodup) (hs : staged.ids.Nodup) :
    (between p confirmed staged).applyTo (confirmed.counts p) = staged.counts p := by
  funext id
  rw [applyTo, foldl_setCount]
  cases hn : staged.counts p id with
  | none =>
    have hout : id ∉ staged.ids := Tier.counts_eq_none_iff.1 hn
    rw [countOf?_updates_eq_none hout, Option.none_or]
    split
    · rfl
    · next hrem =>
      refine Tier.counts_eq_none_iff.2 fun hin => hrem ?_
      exact mem_removed_between.2 ⟨hin, hout⟩
  | some n =>
    have hmem : ⟨id, n⟩ ∈ staged.fixedWeights p := Tier.mem_of_counts hn
    have hkept : id ∉ (between p confirmed staged).removed := fun hrem =>
      (mem_removed_between.1 hrem).2 (InStep.mem_ids_of_fixedWeight hmem)
    rw [if_neg hkept]
    by_cases hsame : confirmed.counts p id = some n
    · -- an update of this endpoint could set nothing but the count it has
      rw [hsame]
      cases hu : countOf? (between p confirmed staged).updates id with
      | none => rfl
      | some m =>
        have hm := (mem_updates_between.1 (mem_of_countOf? hu)).1
        rw [← Tier.counts_eq_some_iff hs, hn] at hm
        exact hm.symm
    · have hu : ⟨id, n⟩ ∈ (between p confirmed staged).updates := by
        refine mem_updates_between.2 ⟨hmem, ?_⟩
        rw [Tier.countOf?_fixedWeights hc]
        exact hsame
      rw [countOf?_eq_some (SameIds.nodup_updates hs) hu, Option.some_or]

theorem isEmpty_iff {plan : CommitPlan} :
    plan.isEmpty = true ↔ plan.updates = [] ∧ plan.removed = [] := by simp [isEmpty]

/-- **A plan is empty if it has nothing to change.** -/
theorem isEmpty_between_iff (hc : confirmed.ids.Nodup) (hs : staged.ids.Nodup) :
    (between p confirmed staged).isEmpty = true ↔ confirmed.counts p = staged.counts p := by
  rw [isEmpty_iff]
  constructor
  · rintro ⟨hupdates, hremoved⟩
    rw [← applyTo_between hc hs, applyTo, hupdates, hremoved]
    simp
  · intro hsame
    rw [updates_between_eq hc hs, removed_between_eq p confirmed staged, ← hsame]
    refine ⟨by simp, List.filter_eq_nil_iff.2 fun id hid => ?_⟩
    rw [Option.isNone_iff_eq_none, Tier.counts_eq_none_iff]
    exact not_not_intro hid

end CommitPlan

/-! ## Commits -/

namespace Session

/-- **A commit sends the exact difference** between the counts of the confirmed tier and those of
the staged one. -/
theorem commit_sends_exact_difference (p : Policy) (settled : Bool) (s s' : Session)
    (staged : Tier) (plan : CommitPlan) (hdirty : s.stage = .dirty staged)
    (hconfirmed : s.confirmed.ids.Nodup) (hstaged : staged.ids.Nodup)
    (h : s.beginCommit p settled = .ok (plan, s')) :
    plan.updates = (staged.ids.filterMap fun id =>
      if s.confirmed.counts p id = staged.counts p id then none
      else (staged.counts p id).map (FixedEntry.mk id)) ∧
    plan.removed = (s.confirmed.ids.filter fun id => (staged.counts p id).isNone) ∧
    (∀ u ∈ plan.updates, u.id ∉ plan.removed) ∧
    plan.applyTo (s.confirmed.counts p) = staged.counts p ∧
    (plan.isEmpty = true ↔ s.confirmed.counts p = staged.counts p) := by
  obtain ⟨t, ht, -, rfl, -⟩ := beginCommit_eq_ok.1 h
  obtain rfl : staged = t := by
    rw [hdirty] at ht
    exact Stage.dirty.inj ht
  exact ⟨CommitPlan.updates_between_eq hconfirmed hstaged,
    CommitPlan.removed_between_eq p s.confirmed staged,
    fun _ hu => CommitPlan.not_mem_removed_of_mem_updates hu,
    CommitPlan.applyTo_between hconfirmed hstaged,
    CommitPlan.isEmpty_between_iff hconfirmed hstaged⟩

/-- One endpoint goes, one comes, and one keeps its count. -/
theorem commit_sends_exact_difference_swap :
    let confirmed : Tier := ⟨"t", [⟨"a", 0.25⟩, ⟨"b", 0.25⟩, ⟨"c", 0.5⟩]⟩
    let staged : Tier := ⟨"t", [⟨"c", 0.5⟩, ⟨"a", 0.125⟩, ⟨"d", 0.375⟩]⟩
    ∃ plan s', beginCommit default true ⟨confirmed, .dirty staged⟩ = .ok (plan, s') ∧
      plan.updates = [⟨"a", 1250⟩, ⟨"d", 3750⟩] ∧ plan.removed = ["b"] ∧
      plan.applyTo (confirmed.counts default) = staged.counts default := by
  intro confirmed staged
  have hbegin : beginCommit default true ⟨confirmed, .dirty staged⟩ =
      .ok (.between default confirmed staged, ⟨confirmed, .saving staged⟩) :=
    beginCommit_eq_ok.2 ⟨staged, rfl, by decide +kernel, rfl, rfl⟩
  obtain ⟨hupdates, hremoved, -, happly, -⟩ := commit_sends_exact_difference default true _ _
    staged _ rfl (by decide +kernel) (by decide +kernel) hbegin
  exact ⟨_, _, hbegin, hupdates.trans (by decide +kernel), hremoved.trans (by decide +kernel),
    happly⟩

end Session

end TierBudget
