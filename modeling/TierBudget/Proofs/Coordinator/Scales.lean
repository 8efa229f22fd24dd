import TierBudget.Proofs.Coordinator.Crowded
/-!
# Board and store at two scales

A plan carries counts and no scale. The board counts at its own scale, the store decodes at another,
and a load rescales what the store then holds to the board's scale again. If a plan lists every
endpoint of its tier, the store holds the wire forms of all counts and nothing else
(`Store.sameIds_applyPlan`), whatever the two scales are. So the load gives all counts back if the
store's scale can hold them (`SameIds.counts_ofStored_wire`). Of a larger count the store holds its
whole scale, and then the proportions are those of what is held (`SameIds.exists_counts_ofStored`).
If the store holds other endpoints, or if there are too many, the counts do not come back
(`Coordinator.reload_across_scales_differs`).
-/

namespace TierBudget

/-! ## What a store makes of a whole plan -/

namespace Store

variable {p : Policy} {t : Tier} {stored : List (RawEntry String)} {plan : CommitPlan}

/-- **A plan that lists every endpoint of a tier leaves the wire forms of its counts**, if all other
endpoints that are stored are removed. -/
theorem sameIds_applyPlan (s : Scale) (ht : t.ids.Nodup)
    (hplan : plan.updates.Sublist (t.fixedWeights p))
    (hall : ∀ id ∈ t.ids, id ∈ plan.updates.map FixedEntry.id)
    (hnodup : (stored.map RawEntry.id).Nodup)
    (hrest : ∀ id ∈ stored.map RawEntry.id, id ∈ t.ids ∨ id ∈ plan.removed) :
    SameIds t (applyPlan s plan stored) ∧
      ∀ e ∈ applyPlan s plan stored, ∃ w ∈ t.fixedWeights p, wire s w = e := by
  have hu : (plan.updates.map FixedEntry.id).Nodup :=
    (hplan.map _).nodup (InStep.nodup_fixedWeights ht)
  have hmem (e : RawEntry String) :
      e ∈ applyPlan s plan stored ↔ ∃ u ∈ plan.updates, wire s u = e := by
    rw [mem_applyPlan s hu hnodup]
    constructor
    · rintro (⟨u, hu, rfl⟩ | ⟨he, hkept, hnot⟩)
      · exact ⟨u, hu, rfl⟩
      · rcases hrest e.id (List.mem_map_of_mem he) with hid | hid
        · exact absurd (hall e.id hid) hnot
        · exact absurd hid hkept
    · rintro ⟨u, hu, rfl⟩
      exact .inl ⟨u, hu, rfl⟩
  refine ⟨⟨ht, nodup_applyPlan s hu hnodup, fun id => ⟨fun hid => ?_, fun hid => ?_⟩⟩,
    fun e he => ?_⟩
  · obtain ⟨e, he, rfl⟩ := List.mem_map.1 hid
    obtain ⟨u, hu, rfl⟩ := (hmem e).1 he
    exact InStep.mem_ids_of_fixedWeight (hplan.subset hu)
  · obtain ⟨u, hu, rfl⟩ := List.mem_map.1 (hall id hid)
    exact List.mem_map.2 ⟨wire s u, (hmem _).2 ⟨u, hu, rfl⟩, rfl⟩
  · obtain ⟨u, hu, hwire⟩ := (hmem e).1 he
    exact ⟨u, hplan.subset hu, hwire⟩

end Store

/-! ## Loading wire forms -/

namespace SameIds

variable {p : Policy} {s : Scale} {t : Tier} {stored : List (RawEntry String)}
  (h : SameIds t stored) (hwire : ∀ e ∈ stored, ∃ w ∈ t.fixedWeights p, Store.wire s w = e)
  (hn : t.entries.length * p.scale.size.toNat ≤ 2 ^ 50)
include h hwire hn

/-- **All counts come back** if the store's scale can hold them. -/
theorem counts_ofStored_wire (hs : ∀ w ∈ t.fixedWeights p, w.count ≤ s.size) (id : String) :
    (Tier.ofStored p id stored).counts p = t.counts p :=
  Tier.counts_eq_of_perm h.nodup_ids (h.perm_fixedWeights_ofStored hwire hs hn id)

/-- **The proportions of what the store's scale holds come back**, give or take little more than a
unit. -/
theorem exists_counts_ofStored (hlen : 2 ≤ t.entries.length) (hmax : t.entries.length ≤ 2 ^ 27)
    (id : String) {w : FixedEntry String} (hw : w ∈ t.fixedWeights p) :
    ∃ n, (Tier.ofStored p id stored).counts p w.id = some n ∧
      |(n.toNat : ℚ) - (s.clip w).count.toNat /
        ((t.fixedWeights p).map fun w => (s.clip w).count.toNat).sum * p.scale.size.toNat| ≤
          5 / 4 := by
  obtain ⟨fixed, hperm, rfl⟩ := h.exists_perm hwire
  have hids : (Tier.ofStored p id (fixed.map (Store.wire s))).ids.Nodup := by
    rw [Tier.ids_ofStored]
    exact h.nodup_stored
  have hlength : (fixed.map s.clip).length = t.entries.length := by
    rw [List.length_map, hperm.length_eq, Tier.fixedWeights, Policy.length_toFixed]
  have hsum : ((fixed.map s.clip).map fun w => w.count.toNat).sum =
      ((t.fixedWeights p).map fun w => (s.clip w).count.toNat).sum := by
    rw [List.map_map]
    exact (hperm.map _).sum_eq
  have hwhole : 0 < ((t.fixedWeights p).map fun w => (s.clip w).count.toNat).sum :=
    (p.isBudget_toFixed (List.ne_nil_of_length_pos (by omega))).sum_clip_pos s
  obtain ⟨n, hmem, hclose⟩ := Policy.exists_mem_toFixed_decode p
    (fun e he => by
      obtain ⟨v, -, rfl⟩ := List.mem_map.1 he
      exact s.clip_count_le v) hsum hwhole (hlength ▸ hn) (hlength ▸ hmax)
    (List.mem_map_of_mem (hperm.symm.subset hw))
  refine ⟨n, (Tier.counts_eq_some_iff hids).2 ?_, hclose⟩
  have hfixed : fixed.length = t.entries.length := (List.length_map _).symm.trans hlength
  rw [Tier.fixedWeights_ofStored p s (by omega) (hfixed ▸ hn), ← Policy.map_decode_clip]
  exact hmem

end SameIds

/-! ## Commits -/

namespace Coordinator

variable {c d : Coordinator} {id : String} {plan : CommitPlan}

theorem step_of_acceptedPlan? {s : Step} (h : acceptedPlan? id (s, (c.step s).1) = some plan) :
    c.step s = (.ok (.plan plan), (c.step s).2) := by
  refine Prod.ext ?_ rfl
  unfold acceptedPlan? at h
  split at h
  · next heq =>
    obtain ⟨-, hanswer⟩ := Prod.mk.inj heq
    split at h <;> simp_all
  · cases h

/-- What the store held of a tier before a plan that lists every endpoint of it, if anything, was in
no need of clearing up: each endpoint once, and only endpoints that stay or are removed. -/
def HoldsWithin (c : Coordinator) (id : String) (ids removed : List String) : Prop :=
  ∀ stored, c.store.load id = .ok stored → (stored.map RawEntry.id).Nodup ∧
    ∀ i ∈ stored.map RawEntry.id, i ∈ ids ∨ i ∈ removed

/-- **A plan that lists every endpoint of its tier, between a board and a store of any scales.** In
every run of a board, let the store accept such a plan, and hold no endpoint besides. Then the tier
can be loaded. All endpoints get the counts that the board has confirmed, if the store's scale can
hold these counts. If not, every endpoint gets the part of the board's scale, give or take five
quarters of a unit, that it has in what the store's scale holds of all counts. -/
theorem reload_across_scales (p : Policy) (requireSettled : Bool) (store : Store)
    (steps : List Step) (id : String) (plan : CommitPlan) (d : Coordinator) :
    let c := (fresh p requireSettled store).after steps
    let scale := c.store.scale
    c.step (.finishCommit id .accepted) = (.ok (.plan plan), d) →
    ∃ confirmed, d.board.session? id = some ⟨confirmed, .clean⟩ ∧
      (confirmed.ids.Nodup → (∀ i ∈ confirmed.ids, i ∈ plan.updates.map FixedEntry.id) →
        c.HoldsWithin id confirmed.ids plan.removed →
        confirmed.entries.length * p.scale.size.toNat ≤ 2 ^ 50 →
        ∃ t e, d.step (.load id) = (.ok (.tier t), e) ∧
          ((∀ w ∈ confirmed.fixedWeights p, w.count ≤ scale.size) →
            t.counts p = confirmed.counts p) ∧
          (2 ≤ confirmed.entries.length → confirmed.entries.length ≤ 2 ^ 27 →
            ∀ w ∈ confirmed.fixedWeights p, ∃ n, t.counts p w.id = some n ∧
              |(n.toNat : ℚ) - (scale.clip w).count.toNat /
                ((confirmed.fixedWeights p).map fun w => (scale.clip w).count.toNat).sum *
                  p.scale.size.toNat| ≤ 5 / 4)) := by
  intro c scale haccept
  have hp : c.board.policy = p := policy_after _ steps
  obtain ⟨old, confirmed, hplan, htier, hsession, hstore, hpolicy⟩ := accepted_plan
    ((consistent_fresh p requireSettled store).after steps)
    ((keyed_fresh p requireSettled store).after steps) haccept
  rw [hp] at hplan hpolicy
  refine ⟨confirmed, hsession, fun hids hall hholds hn => ?_⟩
  -- a tier that is not stored yet counts as one without endpoints
  have hstored : (((c.store.tiers.get? id).getD []).map RawEntry.id).Nodup ∧
      ∀ i ∈ ((c.store.tiers.get? id).getD []).map RawEntry.id,
        i ∈ confirmed.ids ∨ i ∈ plan.removed := by
    cases hl : c.store.tiers.get? id with
    | none => simp
    | some stored => exact hholds stored (Store.load_eq_ok.2 hl)
  have hload : d.store.load id = .ok (Store.applyPlan scale plan
      ((c.store.tiers.get? id).getD [])) := by
    rw [hstore]
    exact htier ▸ Store.load_put_tierId c.store plan
  have hupdates : plan.updates.Sublist (confirmed.fixedWeights p) :=
    hplan ▸ CommitPlan.updates_between_sublist
  obtain ⟨hsame, hwire⟩ := Store.sameIds_applyPlan scale hids hupdates hall hstored.1 hstored.2
  have hfree : d.board.IsFree id :=
    (Board.isFree_iff_of_session hsession).2 (Session.not_isSaving_clean confirmed)
  refine ⟨_, _, step_load hload hfree, fun hs => ?_, fun hlen hmax w hw => ?_⟩
  · rw [hpolicy]
    exact hsame.counts_ofStored_wire hwire hn hs id
  · rw [hpolicy]
    exact hsame.exists_counts_ofStored hwire hn hlen hmax id hw

/-- A quarter and three quarters of ten thousand units go to a store that can hold 7500. -/
theorem reload_across_scales_fits :
    let c := (fresh default true (.new ⟨7500, by decide⟩)).after
      [.insert ⟨"t", [⟨"a", 0.5⟩, ⟨"b", 0.5⟩]⟩, .edit "t" (.weight "a" 0.25), .startCommit "t"]
    let d := (c.step (.finishCommit "t" .accepted)).2
    ∃ confirmed t e, d.board.session? "t" = some ⟨confirmed, .clean⟩ ∧
      confirmed.fixedWeights default = [⟨"a", 2500⟩, ⟨"b", 7500⟩] ∧
      d.step (.load "t") = (.ok (.tier t), e) ∧ t.counts default = confirmed.counts default := by
  intro c d
  have hplan : acceptedPlan? "t" (.finishCommit "t" .accepted,
      (c.step (.finishCommit "t" .accepted)).1) = some ⟨"t", [⟨"a", 2500⟩, ⟨"b", 7500⟩], []⟩ := by
    decide +kernel
  have haccept : c.step (.finishCommit "t" .accepted) =
      (.ok (.plan ⟨"t", [⟨"a", 2500⟩, ⟨"b", 7500⟩], []⟩), d) := step_of_acceptedPlan? hplan
  obtain ⟨confirmed, hsession, hreload⟩ := reload_across_scales default true (.new ⟨7500, by decide⟩)
    [.insert ⟨"t", [⟨"a", 0.5⟩, ⟨"b", 0.5⟩]⟩, .edit "t" (.weight "a" 0.25), .startCommit "t"] "t"
    _ d haccept
  have hconfirmed : (d.board.session? "t").map (·.confirmed.fixedWeights default) =
      some [⟨"a", 2500⟩, ⟨"b", 7500⟩] := by decide +kernel
  rw [hsession] at hconfirmed
  have hfixed : confirmed.fixedWeights default = [⟨"a", 2500⟩, ⟨"b", 7500⟩] :=
    Option.some.inj hconfirmed
  have hids : confirmed.ids = ["a", "b"] := by
    rw [← Tier.map_id_fixedWeights default, hfixed]
    rfl
  have hlength : confirmed.entries.length = 2 := by
    simpa [Tier.ids] using congrArg List.length hids
  have hnew : c.store.tiers.get? "t" = none := by decide +kernel
  have hholds : c.HoldsWithin "t" confirmed.ids [] := fun stored hl => by
    rw [Store.load_eq_ok, hnew] at hl
    cases hl
  obtain ⟨t, e, hload, hcounts, -⟩ := hreload (by rw [hids]; decide) (by rw [hids]; decide) hholds
    (by rw [hlength]; decide)
  exact ⟨confirmed, t, e, hsession, hfixed, hload, hcounts (by rw [hfixed]; decide +kernel)⟩

/-- None of these conditions can be dropped. If the store's scale cannot hold the counts, three
quarters are loaded as a half. If the store holds another endpoint, that one takes its part as well.
And with too many endpoints the sum of their units drifts, and the largest count comes back smaller,
though the store holds nothing but the counts and its scale is the larger one. -/
theorem reload_across_scales_differs :
    (let c := (fresh default true (.new ⟨100, by decide⟩)).after
      [.insert ⟨"t", [⟨"a", 0.5⟩, ⟨"b", 0.5⟩]⟩, .edit "t" (.weight "a" 0.25), .startCommit "t"]
    let d := c.after [.finishCommit "t" .accepted]
    let reloaded := d.after [.load "t"]
    accepted "t" (c.trace [.finishCommit "t" .accepted]) =
        [⟨"t", [⟨"a", 2500⟩, ⟨"b", 7500⟩], []⟩] ∧
      (d.board.session? "t").map (fun s => (s.state, s.confirmed.fixedWeights default)) =
        some (.clean, [⟨"a", 2500⟩, ⟨"b", 7500⟩]) ∧
      (reloaded.board.session? "t").map (fun s => (s.state, s.confirmed.fixedWeights default)) =
        some (.clean, [⟨"a", 5000⟩, ⟨"b", 5000⟩])) ∧
    (let c := (fresh default true default).after
      [.seed "t" [⟨"c", ⟨1, some .fraction⟩⟩], .insert ⟨"t", [⟨"a", 0.5⟩, ⟨"b", 0.5⟩]⟩,
        .edit "t" (.weight "a" 0.25), .startCommit "t"]
    let d := c.after [.finishCommit "t" .accepted]
    let reloaded := d.after [.load "t"]
    accepted "t" (c.trace [.finishCommit "t" .accepted]) =
        [⟨"t", [⟨"a", 2500⟩, ⟨"b", 7500⟩], []⟩] ∧
      (d.board.session? "t").map (fun s => (s.state, s.confirmed.fixedWeights default)) =
        some (.clean, [⟨"a", 2500⟩, ⟨"b", 7500⟩]) ∧
      (reloaded.board.session? "t").map (fun s => (s.state, s.confirmed.fixedWeights default)) =
        some (.clean, [⟨"c", 5000⟩, ⟨"a", 1250⟩, ⟨"b", 3750⟩])) ∧
    (let p : Policy := ⟨⟨2147483648, by decide⟩, Policy.defaultEpsilon⟩
    let ids := (List.range' 2 (2 ^ 26)).map decimalText
    let c := (fresh p false (.new ⟨2147483775, by decide⟩)).after
      [.insert (crowdTier p (wholeCrowd (decimalText 0) (decimalText 1) ids)),
        .edit "t" (.detach (decimalText 0)), .startCommit "t"]
    ∃ d t e, c.step (.finishCommit "t" .accepted) =
        (.ok (.plan ⟨"t", Policy.crowd (decimalText 1) ids, [decimalText 0]⟩), d) ∧
      d.board.session? "t" = some ⟨crowdTier p (Policy.crowd (decimalText 1) ids), .clean⟩ ∧
      (crowdTier p (Policy.crowd (decimalText 1) ids)).counts p (decimalText 1) = some 2013265920 ∧
      d.step (.load "t") = (.ok (.tier t), e) ∧
      ∃ n, t.counts p (decimalText 1) = some n ∧ n < 2013265920) := by
  refine ⟨by decide +kernel, by decide +kernel, ?_⟩
  exact reload_crowd (by decide) (by decide) (by rw [List.length_map, List.length_range'])
    (nodup_decimalTexts (2 ^ 26))

end Coordinator

end TierBudget
