import TierBudget.Proofs.Difference
/-!
# A plan is an upsert that keeps the order

What a plan makes of the entries of a tier, position by position, with ids that may repeat anywhere
(`Store.getElem?_foldl_upsert`): an update goes to the first entry of its id, and of several updates
of one id the last one stays. The entries keep their places, and ids that were not there follow in
the order in which the updates first mention them (`Store.map_id_foldl_upsert`). A second time the
same plan finds all its ids in place, so unless it removes what it updates it changes nothing more
(`Store.applyPlan_applyPlan`).
-/

namespace TierBudget

/-- The ids that updates add to those that are there, in the order in which they are first
mentioned. -/
def CommitPlan.addedIds (updates : List (FixedEntry String)) (present : List String) :
    List String :=
  (updates.map FixedEntry.id).eraseDups.filter (· ∉ present)

/-- The entries that a plan does not remove. -/
def CommitPlan.kept (plan : CommitPlan) (entries : List (RawEntry String)) :
    List (RawEntry String) :=
  entries.filter (·.id ∉ plan.removed)

namespace CommitPlan

theorem mem_addedIds {updates : List (FixedEntry String)} {present : List String} {id : String} :
    id ∈ addedIds updates present ↔ id ∈ updates.map FixedEntry.id ∧ id ∉ present := by
  rw [addedIds, List.mem_filter, List.mem_eraseDups, decide_eq_true_eq]

/-- An update adds its id if neither the entries nor the updates before it have it. -/
theorem addedIds_concat (updates : List (FixedEntry String)) (u : FixedEntry String)
    (present : List String) :
    addedIds (updates ++ [u]) present = addedIds updates present ++
      if u.id ∈ present ++ addedIds updates present then [] else [u.id] := by
  have hmem : u.id ∈ present ++ addedIds updates present ↔
      u.id ∈ present ∨ u.id ∈ updates.map FixedEntry.id := by
    rw [List.mem_append, mem_addedIds]
    tauto
  simp only [hmem]
  rw [addedIds, addedIds, List.map_append, List.eraseDups_append, List.filter_append]
  congr 1
  by_cases hupdates : u.id ∈ updates.map FixedEntry.id
  · simp [List.removeAll, List.mem_map.1 hupdates]
  · have hremove : [u.id].removeAll (updates.map FixedEntry.id) = [u.id] := by
      simpa [List.removeAll] using hupdates
    by_cases hpresent : u.id ∈ present
    · simp [hremove, List.eraseDups_cons, hpresent]
    · simp [hremove, List.eraseDups_cons, hpresent, List.mem_map.not.1 hupdates]

end CommitPlan

namespace Store

open CommitPlan

variable {scale : Scale} {plan : CommitPlan} {id : String} {weight : RawWeight}
  {l : List (RawEntry String)}

/-! ## One update -/

/-- **An update goes to the first entry of its id**, or to the end. -/
theorem getElem?_upsert (id : String) (weight : RawWeight) :
    ∀ (l : List (RawEntry String)) (i : ℕ),
      (upsert id weight l)[i]? = if (l.map RawEntry.id).idxOf id = i then some ⟨id, weight⟩ else l[i]?
  | [], 0 => rfl
  | [], i + 1 => rfl
  | e :: rest, i => by
    have ih := getElem?_upsert id weight rest
    rw [upsert, List.map_cons, List.idxOf_cons]
    by_cases he : e.id = id
    · cases i with
      | zero => simp [he]
      | succ i => simp [he]
    · rw [if_neg he, beq_eq_false_iff_ne.2 he, cond_false]
      cases i with
      | zero => simp
      | succ i => simp [ih]

/-- Updates do not move the first entry of an id. -/
theorem idxOf_map_id_upsert {other : String} (h : other = id ∨ other ∈ l.map RawEntry.id) :
    ((upsert id weight l).map RawEntry.id).idxOf other = (l.map RawEntry.id).idxOf other := by
  rw [map_id_upsert]
  split
  · rfl
  · next hid =>
    rw [List.idxOf_append]
    rcases h with rfl | h
    · rw [if_neg hid, List.idxOf_eq_length hid]
      simp
    · rw [if_pos h]

/-! ## All updates -/

/-- **The ids after the updates**: those that are there, and the new ones in the order in which they
are first mentioned. -/
theorem map_id_foldl_upsert (scale : Scale) (updates : List (FixedEntry String))
    (l : List (RawEntry String)) :
    (updates.foldl (fun es u => upsert u.id (wire scale u).weight es) l).map RawEntry.id =
      l.map RawEntry.id ++ addedIds updates (l.map RawEntry.id) := by
  induction updates using List.reverseRecOn with
  | nil => simp [addedIds]
  | append_singleton updates u ih =>
    rw [List.foldl_concat, map_id_upsert, ih, addedIds_concat]
    split
    · rw [List.append_nil]
    · rw [List.append_assoc]

theorem mem_map_id_foldl_upsert {updates : List (FixedEntry String)} {u : FixedEntry String}
    (hu : u ∈ updates) :
    u.id ∈ (updates.foldl (fun es u => upsert u.id (wire scale u).weight es) l).map RawEntry.id := by
  rw [map_id_foldl_upsert, List.mem_append, mem_addedIds, or_iff_not_imp_left]
  exact fun hnot => ⟨List.mem_map_of_mem hu, hnot⟩

/-- **The entries after the updates**: at the first entry of its id stands the last update of that
id, and all other entries are the old ones. -/
theorem getElem?_foldl_upsert (scale : Scale) (updates : List (FixedEntry String))
    (l : List (RawEntry String)) (i : ℕ) :
    let after := updates.foldl (fun es u => upsert u.id (wire scale u).weight es) l
    after[i]? = ((updates.reverse.find? fun u =>
      (after.map RawEntry.id).idxOf u.id = i).map (wire scale)).or l[i]? := by
  induction updates using List.reverseRecOn with
  | nil => rfl
  | append_singleton updates u ih =>
    dsimp only at ih ⊢
    rw [List.foldl_concat, getElem?_upsert, ih, List.reverse_concat, List.find?_cons,
      idxOf_map_id_upsert (.inl rfl)]
    split
    · next hfirst =>
      rw [decide_eq_true hfirst]
      rfl
    · next hfirst =>
      rw [decide_eq_false hfirst]
      congr 2
      refine List.find?_congr fun v hv => ?_
      rw [idxOf_map_id_upsert (.inr (mem_map_id_foldl_upsert (List.mem_reverse.1 hv)))]

theorem nodup_foldl_upsert (scale : Scale) (updates : List (FixedEntry String))
    (h : (l.map RawEntry.id).Nodup) :
    ((updates.foldl (fun es u => upsert u.id (wire scale u).weight es) l).map
      RawEntry.id).Nodup := by
  induction updates using List.reverseRecOn with
  | nil => exact h
  | append_singleton updates u ih =>
    rw [List.foldl_concat]
    exact nodup_upsert ih

/-! ## Plans -/

theorem applyPlan_eq_foldl (scale : Scale) (plan : CommitPlan) (l : List (RawEntry String)) :
    applyPlan scale plan l =
      plan.updates.foldl (fun es u => upsert u.id (wire scale u).weight es) (plan.kept l) := by
  rw [applyPlan, kept]
  congr 1
  exact List.filter_congr fun e _ => by simp

theorem map_id_applyPlan (scale : Scale) (plan : CommitPlan) (l : List (RawEntry String)) :
    (applyPlan scale plan l).map RawEntry.id =
      (plan.kept l).map RawEntry.id ++ addedIds plan.updates ((plan.kept l).map RawEntry.id) := by
  rw [applyPlan_eq_foldl, map_id_foldl_upsert]

theorem getElem?_applyPlan (scale : Scale) (plan : CommitPlan) (l : List (RawEntry String))
    (i : ℕ) :
    (applyPlan scale plan l)[i]? = ((plan.updates.reverse.find? fun u =>
      ((applyPlan scale plan l).map RawEntry.id).idxOf u.id = i).map (wire scale)).or
        (plan.kept l)[i]? := by
  rw [applyPlan_eq_foldl]
  exact getElem?_foldl_upsert scale plan.updates (plan.kept l) i

/-- The first entry of an updated id has the last weight that is listed for the id. -/
theorem getElem_applyPlan_of_first {i : ℕ} {n : Count} (hi : i < (applyPlan scale plan l).length)
    (hfirst : ((applyPlan scale plan l).map RawEntry.id).idxOf (applyPlan scale plan l)[i].id = i)
    (hcount : countOf? plan.updates (applyPlan scale plan l)[i].id = some n) :
    (applyPlan scale plan l)[i].weight = ⟨scale.decode n, some .fraction⟩ := by
  obtain ⟨u, hu, rfl⟩ := Option.map_eq_some_iff.1 hcount
  have hget := getElem?_applyPlan scale plan l i
  set new := applyPlan scale plan l
  have hfind : (plan.updates.reverse.find? fun u => (new.map RawEntry.id).idxOf u.id = i) =
      plan.updates.reverse.find? (·.id = new[i].id) := by
    refine List.find?_congr fun v hv => decide_eq_decide.2 ⟨fun hv => ?_, fun hv => ?_⟩
    · have hlt : (new.map RawEntry.id).idxOf v.id < (new.map RawEntry.id).length := by
        rwa [hv, List.length_map]
      have hv' := List.getElem_idxOf hlt
      simp only [hv, List.getElem_map] at hv'
      exact hv'.symm
    · rw [hv, hfirst]
  rw [hfind, hu, List.getElem?_eq_getElem hi, Option.map_some, Option.some_or,
    Option.some_inj] at hget
  rw [hget]
  rfl

/-- Any other entry is the old one. -/
theorem getElem?_kept_of_not_first {i : ℕ} (hi : i < (applyPlan scale plan l).length)
    (h : ((applyPlan scale plan l).map RawEntry.id).idxOf (applyPlan scale plan l)[i].id ≠ i ∨
      countOf? plan.updates (applyPlan scale plan l)[i].id = none) :
    (plan.kept l)[i]? = some (applyPlan scale plan l)[i] := by
  have hget := getElem?_applyPlan scale plan l i
  set new := applyPlan scale plan l
  have hfind : (plan.updates.reverse.find? fun u => (new.map RawEntry.id).idxOf u.id = i) = none := by
    refine List.find?_eq_none.2 fun v hv hpos => ?_
    have hpos : (new.map RawEntry.id).idxOf v.id = i := of_decide_eq_true hpos
    have hlt : (new.map RawEntry.id).idxOf v.id < (new.map RawEntry.id).length := by
      rwa [hpos, List.length_map]
    have hid : new[i].id = v.id := by
      have hid := List.getElem_idxOf hlt
      simpa only [hpos, List.getElem_map] using hid
    rcases h with hfirst | hnone
    · exact hfirst (hid ▸ hpos)
    · rw [countOf?, Option.map_eq_none_iff, List.find?_eq_none] at hnone
      exact hnone v hv (decide_eq_true hid.symm)
  rw [hfind, Option.map_none, Option.none_or, List.getElem?_eq_getElem hi] at hget
  exact hget.symm

/-! ## Once more -/

/-- If a plan removes nothing that it updates, it removes nothing of what it leaves. -/
theorem kept_applyPlan (scale : Scale) (h : ∀ u ∈ plan.updates, u.id ∉ plan.removed)
    (l : List (RawEntry String)) :
    plan.kept (applyPlan scale plan l) = applyPlan scale plan l := by
  refine List.filter_eq_self.2 fun e he => decide_eq_true ?_
  have hid := List.mem_map_of_mem (f := RawEntry.id) he
  rw [map_id_applyPlan, List.mem_append, mem_addedIds] at hid
  rcases hid with hkept | ⟨hupdated, -⟩
  · obtain ⟨d, hd, hde⟩ := List.mem_map.1 hkept
    have hnot := (List.mem_filter.1 hd).2
    exact hde ▸ of_decide_eq_true hnot
  · obtain ⟨u, hu, hue⟩ := List.mem_map.1 hupdated
    exact hue ▸ h u hu

/-- **The same plan once more changes nothing.** -/
theorem applyPlan_applyPlan (scale : Scale) (h : ∀ u ∈ plan.updates, u.id ∉ plan.removed)
    (l : List (RawEntry String)) :
    applyPlan scale plan (applyPlan scale plan l) = applyPlan scale plan l := by
  have hkept := kept_applyPlan scale h l
  -- all ids are in place
  have hids : (applyPlan scale plan (applyPlan scale plan l)).map RawEntry.id =
      (applyPlan scale plan l).map RawEntry.id := by
    rw [map_id_applyPlan, hkept, addedIds, List.filter_eq_nil_iff.2, List.append_nil]
    intro id hid
    obtain ⟨u, hu, rfl⟩ := List.mem_map.1 (List.mem_eraseDups.1 hid)
    rw [applyPlan_eq_foldl scale plan l, decide_eq_true_eq, not_not]
    exact mem_map_id_foldl_upsert hu
  refine List.ext_getElem? fun i => ?_
  rw [getElem?_applyPlan, hids, hkept]
  conv_lhs => rw [getElem?_applyPlan scale plan l i, ← Option.or_assoc, Option.or_self]
  exact (getElem?_applyPlan scale plan l i).symm

theorem put_put (s : Store) (h : ∀ u ∈ plan.updates, u.id ∉ plan.removed) :
    (s.put plan).put plan = s.put plan := by
  simp [put, seed, Catalogue.insert_insert, applyPlan_applyPlan s.scale h]

/-- **A plan is an upsert that keeps the order, and may be repeated.** Whatever is stored, with ids
that may repeat in the entries and in the plan: only the tier of the plan changes. Its new list has
the ids that are not removed, in their old order, and then those that the updates add, in the order
in which they are first mentioned. The first entry of an updated id has the count that is listed
last, as a fraction at the scale of the store; every other entry is the one that stood at its place
after the removal. Ids that were distinct stay distinct. A plan that removes nothing that it updates,
such as any plan between two tiers, has no further effect the second time. -/
theorem put_is_ordered_upsert (s : Store) (plan : CommitPlan) :
    let old := (s.tiers.get? plan.tierId).getD []
    let kept := plan.kept old
    (∃ new, (s.put plan).tiers.get? plan.tierId = some new ∧
      new.map RawEntry.id =
        kept.map RawEntry.id ++ addedIds plan.updates (kept.map RawEntry.id) ∧
      (∀ (i : ℕ) (hi : i < new.length),
        (∀ n, (new.map RawEntry.id).idxOf new[i].id = i →
          countOf? plan.updates new[i].id = some n →
            new[i].weight = ⟨s.scale.decode n, some .fraction⟩) ∧
        ((new.map RawEntry.id).idxOf new[i].id ≠ i ∨ countOf? plan.updates new[i].id = none →
          kept[i]? = some new[i])) ∧
      ((old.map RawEntry.id).Nodup → (new.map RawEntry.id).Nodup)) ∧
    (s.put plan).scale = s.scale ∧
    (∀ id ≠ plan.tierId, (s.put plan).tiers.get? id = s.tiers.get? id) ∧
    ((∀ u ∈ plan.updates, u.id ∉ plan.removed) → (s.put plan).put plan = s.put plan) ∧
    ∀ (p : Policy) (confirmed staged : Tier),
      (s.put (.between p confirmed staged)).put (.between p confirmed staged) =
        s.put (.between p confirmed staged) := by
  intro old kept
  refine ⟨⟨applyPlan s.scale plan old, ?_, map_id_applyPlan s.scale plan old, fun i hi =>
    ⟨fun n hfirst hcount => getElem_applyPlan_of_first hi hfirst hcount,
      getElem?_kept_of_not_first hi⟩, fun hold => ?_⟩, rfl, fun id hid => ?_, s.put_put,
    fun p confirmed staged => s.put_put fun u hu => not_mem_removed_of_mem_updates hu⟩
  · simp [put, seed, old]
  · rw [applyPlan_eq_foldl]
    exact nodup_foldl_upsert s.scale plan.updates (nodup_filter hold _)
  · simp [put, seed, hid]

/-- One endpoint is removed, one is updated in place, and one that is mentioned twice is added. -/
theorem put_is_ordered_upsert_twice :
    let old : List (RawEntry String) := [⟨"a", ⟨30, none⟩⟩, ⟨"b", ⟨70, none⟩⟩, ⟨"c", ⟨0, none⟩⟩]
    let s := (Store.new default).seed "t" old
    let plan : CommitPlan := ⟨"t", [⟨"d", 1000⟩, ⟨"a", 2000⟩, ⟨"d", 3000⟩], ["c"]⟩
    (old.map RawEntry.id).Nodup ∧ (∀ u ∈ plan.updates, u.id ∉ plan.removed) ∧
      (s.put plan).put plan = s.put plan ∧
      ∃ new, (s.put plan).tiers.get? "t" = some new ∧ new.map RawEntry.id = ["a", "b", "d"] ∧
        (new.map RawEntry.id).Nodup := by
  intro old s plan
  have hold : (s.tiers.get? "t").getD [] = old := by simp [s, seed]
  have hnodup : (old.map RawEntry.id).Nodup := by decide
  have hdisjoint : ∀ u ∈ plan.updates, u.id ∉ plan.removed := by decide
  obtain ⟨⟨new, hnew, hids, -, hdistinct⟩, -, -, htwice, -⟩ := put_is_ordered_upsert s plan
  rw [show plan.tierId = "t" from rfl, hold] at hids hdistinct
  exact ⟨hnodup, hdisjoint, htwice hdisjoint, new, hnew, hids, hdistinct hnodup⟩

end Store

end TierBudget
