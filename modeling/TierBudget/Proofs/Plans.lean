import Mathlib.Data.List.Nodup
import TierBudget.Store
/-!
# Plans and what a store makes of them

What is in the entries of a store after a plan (`Store.mem_applyPlan`): the entries of the updated
ids, and the old ones that the plan neither removes nor updates. What is in a plan between two tiers
is said by their counts (`CommitPlan.mem_updates_between`, `CommitPlan.mem_removed_between`).
-/

namespace TierBudget

/-! ## Lists with distinct ids -/

/-- Two members of one id are the same. -/
theorem eq_of_map_nodup {α β : Type} {f : α → β} {l : List α} (h : (l.map f).Nodup) {a b : α}
    (ha : a ∈ l) (hb : b ∈ l) (hab : f a = f b) : a = b := List.inj_on_of_nodup_map h ha hb hab

namespace CommitPlan

/-! ## Plans -/

theorem mem_of_countOf? {entries : List (FixedEntry String)} {id : String} {n : Count}
    (h : countOf? entries id = some n) : ⟨id, n⟩ ∈ entries := by
  obtain ⟨w, hw, rfl⟩ := Option.map_eq_some_iff.1 h
  have hid : w.id = id := by simpa using List.find?_some hw
  have hmem := List.mem_reverse.1 (List.mem_of_find?_eq_some hw)
  rwa [← hid]

/-- Where ids are distinct, the count of an id is the one it is listed with. -/
theorem countOf?_eq_some {entries : List (FixedEntry String)}
    (h : (entries.map FixedEntry.id).Nodup) {w : FixedEntry String} (hw : w ∈ entries) :
    countOf? entries w.id = some w.count := by
  cases hc : countOf? entries w.id with
  | none =>
    rw [countOf?, Option.map_eq_none_iff, List.find?_eq_none] at hc
    exact absurd (by simp) (hc w (List.mem_reverse.2 hw))
  | some n =>
    have hsame := eq_of_map_nodup h (mem_of_countOf? hc) hw rfl
    rw [← hsame]

/-- Counts do not depend on the order of the entries. -/
theorem countOf?_eq_of_perm {entries other : List (FixedEntry String)}
    (h : (entries.map FixedEntry.id).Nodup) (hperm : entries.Perm other) (id : String) :
    countOf? entries id = countOf? other id := by
  have hother : (other.map FixedEntry.id).Nodup := (hperm.map _).nodup_iff.1 h
  apply Option.ext
  intro n
  constructor
  · intro hn
    exact countOf?_eq_some hother (hperm.mem_iff.1 (mem_of_countOf? hn))
  · intro hn
    exact countOf?_eq_some h (hperm.mem_iff.2 (mem_of_countOf? hn))

variable {p : Policy} {confirmed staged : Tier}

theorem mem_updates_between {w : FixedEntry String} :
    w ∈ (between p confirmed staged).updates ↔
      w ∈ staged.fixedWeights p ∧ countOf? (confirmed.fixedWeights p) w.id ≠ some w.count := by
  simp [between, List.mem_filter]

theorem mem_removed_between {id : String} :
    id ∈ (between p confirmed staged).removed ↔ id ∈ confirmed.ids ∧ id ∉ staged.ids := by
  simp [between, List.mem_filter, Tier.contains]

theorem updates_between_sublist :
    (between p confirmed staged).updates.Sublist (staged.fixedWeights p) := List.filter_sublist

end CommitPlan

/-! ## The store -/

namespace Store

/-- An entry as the store keeps it. -/
def wire (scale : Scale) (w : FixedEntry String) : RawEntry String :=
  ⟨w.id, ⟨scale.decode w.count, some .fraction⟩⟩

variable {id : String} {weight : RawWeight} {l : List (RawEntry String)}

theorem map_id_upsert (id : String) (weight : RawWeight) :
    ∀ l : List (RawEntry String), (upsert id weight l).map RawEntry.id =
      if id ∈ l.map RawEntry.id then l.map RawEntry.id else l.map RawEntry.id ++ [id]
  | [] => rfl
  | e :: rest => by
    have ih := map_id_upsert id weight rest
    rw [upsert]
    by_cases he : e.id = id
    · rw [if_pos he, if_pos (by simp [he])]
      simp [he]
    · have hhead : id ∈ e.id :: rest.map RawEntry.id ↔ id ∈ rest.map RawEntry.id := by
        rw [List.mem_cons, or_iff_right (Ne.symm he)]
      rw [if_neg he, List.map_cons, List.map_cons, ih]
      simp only [hhead]
      split <;> rfl

theorem nodup_upsert (h : (l.map RawEntry.id).Nodup) :
    ((upsert id weight l).map RawEntry.id).Nodup := by
  rw [map_id_upsert]
  split
  · exact h
  · next hn =>
    rw [← List.concat_eq_append]
    exact h.concat hn

/-- Upserting puts the new entry in place of all entries of its id. -/
theorem mem_upsert (h : (l.map RawEntry.id).Nodup) {e : RawEntry String} :
    e ∈ upsert id weight l ↔ e = ⟨id, weight⟩ ∨ e ∈ l ∧ e.id ≠ id := by
  induction l with
  | nil => simp [upsert]
  | cons d rest ih =>
    rw [List.map_cons, List.nodup_cons] at h
    rw [upsert]
    by_cases hd : d.id = id
    · have hrest : ∀ e ∈ rest, e.id ≠ id := fun e he heq =>
        h.1 (hd.trans heq.symm ▸ List.mem_map_of_mem he)
      rw [if_pos hd, List.mem_cons, List.mem_cons]
      refine or_congr_right ⟨fun he => ⟨.inr he, hrest e he⟩, fun he => ?_⟩
      exact he.1.resolve_left fun heq => he.2 (heq ▸ hd)
    · rw [if_neg hd, List.mem_cons, ih h.2, List.mem_cons]
      constructor
      · rintro (rfl | rfl | ⟨he, hne⟩)
        · exact .inr ⟨.inl rfl, hd⟩
        · exact .inl rfl
        · exact .inr ⟨.inr he, hne⟩
      · rintro (rfl | ⟨rfl | he, hne⟩)
        · exact .inr (.inl rfl)
        · exact .inl rfl
        · exact .inr (.inr ⟨he, hne⟩)

/-- All updates of a plan, one after the other. -/
theorem mem_foldl_upsert (scale : Scale) {updates : List (FixedEntry String)}
    (hu : (updates.map FixedEntry.id).Nodup) (hl : (l.map RawEntry.id).Nodup) :
    ((updates.foldl (fun es u => upsert u.id (wire scale u).weight es) l).map RawEntry.id).Nodup ∧
      ∀ e, e ∈ updates.foldl (fun es u => upsert u.id (wire scale u).weight es) l ↔
        (∃ u ∈ updates, e = wire scale u) ∨ e ∈ l ∧ e.id ∉ updates.map FixedEntry.id := by
  induction updates generalizing l with
  | nil => exact ⟨hl, fun e => by simp⟩
  | cons u rest ih =>
    rw [List.map_cons, List.nodup_cons] at hu
    obtain ⟨hnodup, hmem⟩ := ih hu.2 (nodup_upsert hl)
    refine ⟨hnodup, fun e => ?_⟩
    rw [List.foldl_cons, hmem e, mem_upsert hl, List.exists_mem_cons_iff, List.map_cons,
      List.mem_cons]
    constructor
    · rintro (h | ⟨rfl | ⟨he, hne⟩, hnot⟩)
      · exact .inl (.inr h)
      · exact .inl (.inl rfl)
      · exact .inr ⟨he, by simp [hne, hnot]⟩
    · rintro ((rfl | h) | ⟨he, hnot⟩)
      · exact .inr ⟨.inl rfl, hu.1⟩
      · exact .inl h
      · rw [not_or] at hnot
        exact .inr ⟨.inr ⟨he, hnot.1⟩, hnot.2⟩

variable {plan : CommitPlan}

theorem nodup_filter (h : (l.map RawEntry.id).Nodup) (f : RawEntry String → Bool) :
    ((l.filter f).map RawEntry.id).Nodup := (List.filter_sublist.map _).nodup h

theorem nodup_applyPlan (scale : Scale) (hu : (plan.updates.map FixedEntry.id).Nodup)
    (hl : (l.map RawEntry.id).Nodup) : ((applyPlan scale plan l).map RawEntry.id).Nodup :=
  (mem_foldl_upsert scale hu (nodup_filter hl _)).1

/-- **What a plan leaves**: its updates, and the entries that it does not name. -/
theorem mem_applyPlan (scale : Scale) (hu : (plan.updates.map FixedEntry.id).Nodup)
    (hl : (l.map RawEntry.id).Nodup) {e : RawEntry String} :
    e ∈ applyPlan scale plan l ↔ (∃ u ∈ plan.updates, e = wire scale u) ∨
      e ∈ l ∧ e.id ∉ plan.removed ∧ e.id ∉ plan.updates.map FixedEntry.id := by
  refine ((mem_foldl_upsert scale hu (nodup_filter hl _)).2 e).trans (or_congr_right ?_)
  simp [List.mem_filter, and_assoc]

theorem upsert_of_not_mem : ∀ {l : List (RawEntry String)}, id ∉ l.map RawEntry.id →
    upsert id weight l = l ++ [⟨id, weight⟩]
  | [], _ => rfl
  | e :: rest, h => by
    rw [List.map_cons, List.mem_cons, not_or] at h
    rw [upsert, if_neg (Ne.symm h.1), upsert_of_not_mem h.2, List.cons_append]

/-- New entries are added at the end, in the order of the updates. -/
theorem foldl_upsert_eq_append (scale : Scale) :
    ∀ {updates : List (FixedEntry String)} {l : List (RawEntry String)},
      (updates.map FixedEntry.id).Nodup →
      (∀ u ∈ updates, u.id ∉ l.map RawEntry.id) →
      updates.foldl (fun es u => upsert u.id (wire scale u).weight es) l =
        l ++ updates.map (wire scale)
  | [], l, _, _ => (List.append_nil l).symm
  | u :: updates, l, hu, hl => by
    rw [List.map_cons, List.nodup_cons] at hu
    rw [List.foldl_cons, upsert_of_not_mem (hl u List.mem_cons_self),
      foldl_upsert_eq_append scale hu.2, List.append_assoc]
    · rfl
    · intro v hv hmem
      rw [List.map_append, List.mem_append] at hmem
      rcases hmem with hmem | hmem
      · exact hl v (List.mem_cons_of_mem u hv) hmem
      · have : v.id = u.id := by simpa using hmem
        exact hu.1 (this ▸ List.mem_map_of_mem hv)

/-- What a plan leaves where nothing was stored. -/
theorem applyPlan_nil (scale : Scale) (hu : (plan.updates.map FixedEntry.id).Nodup) :
    applyPlan scale plan [] = plan.updates.map (wire scale) :=
  foldl_upsert_eq_append scale hu (by simp)

theorem load_eq_ok {s : Store} {entries : List (RawEntry String)} :
    s.load id = .ok entries ↔ s.tiers.get? id = some entries := by
  unfold load
  split <;> simp_all

/-- The tier of a plan is stored afterwards. -/
theorem load_put_tierId (s : Store) (plan : CommitPlan) :
    (s.put plan).load plan.tierId =
      .ok (applyPlan s.scale plan ((s.tiers.get? plan.tierId).getD [])) := by
  simp [load, put, seed]

/-- A plan changes only its own tier. -/
theorem load_put {s : Store} {entries : List (RawEntry String)} (other : String)
    (h : s.load plan.tierId = .ok entries) :
    (s.put plan).load other =
      if other = plan.tierId then .ok (applyPlan s.scale plan entries) else s.load other := by
  rw [load_eq_ok] at h
  by_cases hid : other = plan.tierId
  · simp [load, put, seed, hid, h]
  · simp [load, put, seed, hid]

end Store

end TierBudget
