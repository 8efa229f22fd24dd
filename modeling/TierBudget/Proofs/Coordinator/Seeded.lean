import TierBudget.Proofs.Coordinator.DelayedLoad
/-!
# Committing over seeded weights

A store may be seeded with weights of any kind, which a load normalizes on the board and leaves in
the store as they are. A commit sends only what differs from the loaded tier, so afterwards the
store holds sent weights beside seeded ones (`SameIds.eq_wire_or`). Loading them gives the confirmed
counts back where the seeded ones that are left are read as the shares of their endpoints
(`SameIds.readsAs_applyPlan`, `SameIds.counts_ofStored`); else the seeded weights shift all shares.
-/

namespace TierBudget

/-! ## Reading stored weights -/

/-- The stored weights are read as the shares of the tier's counts. A lone endpoint is not read. -/
def ReadsAs (p : Policy) (t : Tier) (stored : List (RawEntry String)) : Prop :=
  t.entries.length ≤ 1 ∨ ∀ e ∈ stored, ∀ w ∈ t.fixedWeights p, w.id = e.id →
    e.weight.toUnit p.percentEpsilon = p.scale.decode w.count

namespace Tier

variable {p : Policy} {t : Tier} {stored : List (RawEntry String)}

/-- Loading looks at ids and units alone, and at the id alone where there is one entry. -/
theorem ofStored_map (p : Policy) (id : String) {f : RawEntry String → RawEntry String}
    (hid : ∀ e ∈ stored, (f e).id = e.id)
    (hunit : stored.length ≤ 1 ∨ ∀ e ∈ stored,
      (f e).weight.toUnit p.percentEpsilon = e.weight.toUnit p.percentEpsilon) :
    ofStored p id (stored.map f) = ofStored p id stored := by
  -- a lone entry holds the whole, whatever its weight is
  match stored with
  | [] => rfl
  | [e] => simp [ofStored, hid e List.mem_cons_self]
  | e :: e' :: rest =>
    have hunits := hunit.resolve_left (by simp)
    have hraw : p.ofRaw ((e :: e' :: rest).map f) = p.ofRaw (e :: e' :: rest) := by
      rw [Policy.ofRaw, Policy.ofRaw, List.map_map]
      congr 1
      refine List.map_congr_left fun x hx => ?_
      rw [Function.comp_apply, hid x hx, hunits x hx]
    exact congrArg (Tier.mk id) hraw

end Tier

namespace SameIds

variable {p : Policy} {t : Tier} {stored : List (RawEntry String)}

theorem length_eq (h : SameIds t stored) : stored.length = t.entries.length := by
  have hperm : (stored.map RawEntry.id).Perm t.ids :=
    (List.perm_ext_iff_of_nodup h.nodup_stored h.nodup_ids).2 h.mem_ids
  simpa [Tier.ids] using hperm.length_eq

/-- The wire form of the count that the tier has for an entry. -/
def wireOf (p : Policy) (t : Tier) (e : RawEntry String) : RawEntry String :=
  Store.wire p.scale ⟨e.id, (t.counts p e.id).getD 0⟩

theorem wireOf_eq (h : SameIds t stored) {e : RawEntry String} {w : FixedEntry String}
    (hw : w ∈ t.fixedWeights p) (hid : w.id = e.id) : wireOf p t e = Store.wire p.scale w := by
  have hcount : t.counts p e.id = some w.count :=
    (Tier.counts_eq_some_iff h.nodup_ids).2 (hid ▸ hw)
  rw [wireOf, hcount, ← hid]
  rfl

theorem inStep_wireOf (h : SameIds t stored) (p : Policy) :
    InStep p t (stored.map (wireOf p t)) := by
  have hids : (stored.map (wireOf p t)).map RawEntry.id = stored.map RawEntry.id := by
    rw [List.map_map]
    rfl
  refine ⟨h.nodup_ids, hids ▸ h.nodup_stored, fun id => ?_, fun e he w hw hid => ?_⟩
  · rw [hids]
    exact h.mem_ids id
  · obtain ⟨e', -, rfl⟩ := List.mem_map.1 he
    exact congrArg RawEntry.weight (h.wireOf_eq hw hid)

/-- **Weights that are read as the shares of a tier give its counts.** -/
theorem counts_ofStored (h : SameIds t stored) (hreads : ReadsAs p t stored)
    (hn : t.entries.length * p.scale.size.toNat ≤ 2 ^ 50) (id : String) :
    (Tier.ofStored p id stored).counts p = t.counts p := by
  -- the entries cannot be told from those that a commit of all counts would have left
  have hwire : Tier.ofStored p id (stored.map (wireOf p t)) = Tier.ofStored p id stored := by
    refine Tier.ofStored_map p id (fun e _ => rfl) ?_
    rcases hreads with hlone | hunit
    · exact .inl (h.length_eq ▸ hlone)
    · refine .inr fun e he => ?_
      obtain ⟨w, hw, hid⟩ :=
        InStep.exists_fixedWeight (p := p) ((h.mem_ids e.id).1 (List.mem_map_of_mem he))
      rw [h.wireOf_eq hw hid, hunit e he w hw hid]
      exact Scale.clampUnit_decode p.scale w.count
  rw [← hwire]
  exact Tier.counts_eq_of_perm h.nodup_ids ((h.inStep_wireOf p).perm_fixedWeights_ofStored hn id)

theorem ofStored (p : Policy) (id : String) (h : (stored.map RawEntry.id).Nodup) :
    SameIds (.ofStored p id stored) stored := by
  refine ⟨?_, h, fun id => ?_⟩
  · rwa [Tier.ids_ofStored]
  · rw [Tier.ids_ofStored]

/-- After a plan the sent weights are read as the staged shares, and those that were left if they
were so before. -/
theorem readsAs_applyPlan {confirmed staged : Tier} (h : SameIds confirmed stored)
    (hstaged : staged.ids.Nodup)
    (hleft : staged.entries.length ≤ 1 ∨ ∀ e ∈ stored, ∀ w ∈ staged.fixedWeights p, w.id = e.id →
      w ∉ (CommitPlan.between p confirmed staged).updates →
      e.weight.toUnit p.percentEpsilon = p.scale.decode w.count) :
    ReadsAs p staged (Store.applyPlan p.scale (.between p confirmed staged) stored) := by
  refine hleft.imp_right fun hunit e he w hw hid => ?_
  rcases h.eq_wire_or hstaged he hw hid with rfl | ⟨hold, -, hkept⟩
  · exact Scale.clampUnit_decode p.scale w.count
  · exact hunit e hold w hw hid hkept

end SameIds

theorem Store.applyPlan_of_isEmpty (scale : Scale) {plan : CommitPlan} (h : plan.isEmpty = true)
    (entries : List (RawEntry String)) : applyPlan scale plan entries = entries := by
  obtain ⟨hupdates, hremoved⟩ := CommitPlan.isEmpty_iff.1 h
  rw [applyPlan, hupdates, hremoved]
  simp

/-! ## Editing a loaded tier -/

namespace Coordinator

variable {c d : Coordinator} {id : String}

/-- A tier is edited over a confirmed one, and the store stands as it was. -/
structure IsEdited (c : Coordinator) (id : String) (confirmed : Tier) (p : Policy) (store : Store) :
    Prop where
  session : ∃ s, c.board.session? id = some s ∧ s.confirmed = confirmed ∧ s.HasId id ∧
    s.current.ids.Nodup
  policy : c.board.policy = p
  store_eq : c.store = store

namespace IsEdited

variable {confirmed : Tier} {p : Policy} {store : Store}

theorem move_edit {e : Session.Edit} {r : Except TierError Answer}
    (h : c.IsEdited id confirmed p store) (hm : Move c (.edit id e) r d) :
    d.IsEdited id confirmed p store := by
  cases hm with
  | fail => exact h
  | @edit _ _ s t hs hfree ht =>
    obtain ⟨_, hs', rfl, hids, hnodup⟩ := h.session
    rw [hs] at hs'
    cases hs'
    have hids' : Session.HasId { s with stage := .dirty t } id := by
      refine ⟨hids.confirmed, fun _ hstaged => ?_⟩
      cases hstaged
      exact (Session.Edit.id_apply ht).trans hids.current
    exact ⟨⟨{ s with stage := .dirty t }, by simp, rfl, hids', Session.Edit.nodup_apply ht hnodup⟩,
      h.policy, h.store_eq⟩

theorem after (h : c.IsEdited id confirmed p store) (edits : List Session.Edit) :
    (c.after (edits.map (.edit id))).IsEdited id confirmed p store := by
  refine after_induction (P := fun c => c.IsEdited id confirmed p store) h ?_
  intro s hs c r c' hc hm
  obtain ⟨e, -, rfl⟩ := List.mem_map.1 hs
  exact hc.move_edit hm

/-- A commit that starts freezes what is staged. -/
theorem start (h : c.IsEdited id confirmed p store)
    (hstart : c.step (.startCommit id) = (.ok .waiting, d)) :
    ∃ staged, staged.ids.Nodup ∧ staged.id = id ∧ d.IsWaiting id confirmed staged ∧
      d.board.policy = p ∧ d.store = store := by
  have hm := move_step c (.startCommit id)
  rw [hstart] at hm
  obtain ⟨s, hs, rfl, hids, hnodup⟩ := h.session
  obtain ⟨confirmed, staged, hs', hwait⟩ := hm.isWaiting
  rw [hs] at hs'
  cases hs'
  refine ⟨staged, hnodup, hids.staged staged rfl, hwait, hm.policy_eq.trans h.policy, ?_⟩
  cases hm with
  | start => exact h.store_eq

end IsEdited

/-- Loading a tier begins to edit it. -/
theorem isEdited_load {stored : List (RawEntry String)} (hl : c.store.load id = .ok stored)
    (hnodup : (stored.map RawEntry.id).Nodup) (hfree : c.board.IsFree id) :
    (c.step (.load id)).2.IsEdited id (.ofStored c.board.policy id stored) c.board.policy
      c.store := by
  rw [step_load hl hfree]
  refine ⟨⟨.new (.ofStored c.board.policy id stored), by simp, rfl,
    Session.hasId_clean (Tier.id_ofStored ..), ?_⟩, rfl, rfl⟩
  exact (SameIds.ofStored c.board.policy id hnodup).nodup_ids

/-- An accepted plan is applied to the store and becomes the confirmed tier. -/
theorem IsWaiting.accept {confirmed staged : Tier} {stored : List (RawEntry String)}
    (h : c.IsWaiting id confirmed staged) (hid : staged.id = id) (hl : c.store.load id = .ok stored) :
    ∃ e, c.step (.finishCommit id .accepted) =
        (.ok (.plan (.between c.board.policy confirmed staged)), e) ∧
      e.board.policy = c.board.policy ∧ e.board.session? id = some ⟨staged, .clean⟩ ∧
      e.store.load id =
        .ok (Store.applyPlan c.store.scale (.between c.board.policy confirmed staged) stored) := by
  have hm := move_step c (.finishCommit id .accepted)
  have htier : (CommitPlan.between c.board.policy confirmed staged).tierId = id := hid
  obtain ⟨e, hstep, hsession⟩ := h.accepted
  rw [hstep] at hm
  refine ⟨e, hstep, hm.policy_eq, hsession, ?_⟩
  cases hm with
  | accept _ hp hs ht =>
    exact (Store.load_put id (htier.symm ▸ hl)).trans (if_pos htier.symm)

/-- **Committing over seeded weights.** Let a tier be loaded from any stored weights with distinct
ids, edited in any way and committed. Then the store holds the seeded weights under the plan, and
loading them gives every endpoint its confirmed count, if the plan was empty, or the tier has at
most one endpoint, or the weights that the plan left are read as the shares of their endpoints. -/
theorem commit_over_seed (c : Coordinator) (id : String) (seeded : List (RawEntry String))
    (edits : List Session.Edit) (hscale : c.store.scale = c.board.policy.scale)
    (hseeded : c.store.load id = .ok seeded) (hnodup : (seeded.map RawEntry.id).Nodup)
    (hfree : c.board.IsFree id) :
    let p := c.board.policy
    let edited := c.after (.load id :: edits.map (.edit id))
    ∀ d, edited.step (.startCommit id) = (.ok .waiting, d) →
      ∃ plan staged e, d.step (.finishCommit id .accepted) = (.ok (.plan plan), e) ∧
        e.board.session? id = some ⟨staged, .clean⟩ ∧
        e.store.load id = .ok (Store.applyPlan p.scale plan seeded) ∧
        (staged.entries.length * p.scale.size.toNat ≤ 2 ^ 50 →
          (plan.isEmpty = true ∨ staged.entries.length ≤ 1 ∨
            ∀ e ∈ seeded, ∀ w ∈ staged.fixedWeights p, w.id = e.id → w ∉ plan.updates →
              e.weight.toUnit p.percentEpsilon = p.scale.decode w.count) →
          ∃ t e', e.step (.load id) = (.ok (.tier t), e') ∧ t.counts p = staged.counts p) := by
  intro p edited d hstart
  have hloaded := SameIds.ofStored p id hnodup
  have hedited : edited.IsEdited id (.ofStored p id seeded) p c.store :=
    (isEdited_load hseeded hnodup hfree).after edits
  obtain ⟨staged, hstaged, hid, hwait, hp, hstore⟩ := hedited.start hstart
  obtain ⟨e, hfinish, hpe, hsession, hload⟩ := hwait.accept hid (hstore ▸ hseeded)
  rw [hp, hstore, hscale] at hload
  rw [hp] at hfinish hpe
  refine ⟨_, staged, e, hfinish, hsession, hload, fun hn hleft => ?_⟩
  have hfree' : e.board.IsFree id :=
    (Board.isFree_iff_of_session hsession).2 (Session.not_isSaving_clean staged)
  refine ⟨_, _, step_load hload hfree', ?_⟩
  rw [hpe]
  rcases hleft with hempty | hleft
  · rw [Store.applyPlan_of_isEmpty p.scale hempty]
    exact (CommitPlan.isEmpty_between_iff hloaded.nodup_ids hstaged).1 hempty
  · exact (hloaded.applyPlan hstaged).counts_ofStored (hloaded.readsAs_applyPlan hstaged hleft) hn id

/-- Two of three endpoints are sent, and the third one was seeded with its share. -/
theorem commit_over_seed_shares :
    let seeded : List (RawEntry String) :=
      [⟨"a", ⟨0.25, none⟩⟩, ⟨"b", ⟨0.25, none⟩⟩, ⟨"c", ⟨0.5, none⟩⟩]
    let c := (fresh default true default).after [.seed "t" seeded]
    let edits : List Session.Edit := [.weight "a" 0.1, .weight "c" 0.5]
    let edited := c.after (.load "t" :: edits.map (.edit "t"))
    ∃ d plan staged e t e', edited.step (.startCommit "t") = (.ok .waiting, d) ∧
      d.step (.finishCommit "t" .accepted) = (.ok (.plan plan), e) ∧
      plan.updates = [⟨"a", 1250⟩, ⟨"b", 3750⟩] ∧ e.board.session? "t" = some ⟨staged, .clean⟩ ∧
      e.step (.load "t") = (.ok (.tier t), e') ∧ t.counts default = staged.counts default := by
  intro seeded c edits edited
  have hstarted : started "t" (.startCommit "t", (edited.step (.startCommit "t")).1) = true := by
    decide +kernel
  obtain ⟨d, hstart⟩ := step_of_started hstarted
  have hscale : c.store.scale = c.board.policy.scale := by decide +kernel
  have hfree : c.board.IsFree "t" := fun s hs => by cases hs
  have hseeded : c.store.load "t" = .ok seeded := rfl
  obtain ⟨plan, staged, e, hfinish, hsession, -, hreload⟩ :=
    commit_over_seed c "t" seeded edits hscale hseeded (by decide) hfree d hstart
  have hplan : acceptedPlan? "t" (.finishCommit "t" .accepted,
      ((edited.step (.startCommit "t")).2.step (.finishCommit "t" .accepted)).1) =
        some ⟨"t", [⟨"a", 1250⟩, ⟨"b", 3750⟩], []⟩ := by decide +kernel
  have hstaged : ((((edited.step (.startCommit "t")).2.step (.finishCommit "t" .accepted)).2.board
      ).session? "t").map (·.confirmed.fixedWeights default) =
        some [⟨"a", 1250⟩, ⟨"b", 3750⟩, ⟨"c", 5000⟩] := by decide +kernel
  rw [hstart, hfinish] at hplan hstaged
  rw [hsession] at hstaged
  obtain rfl := Option.some.inj hplan
  have hfixed : staged.fixedWeights default = [⟨"a", 1250⟩, ⟨"b", 3750⟩, ⟨"c", 5000⟩] :=
    Option.some.inj hstaged
  have hlength : staged.entries.length = 3 :=
    (Policy.length_toFixed default staged.entries).symm.trans (congrArg List.length hfixed)
  have hleft : ∀ e ∈ seeded, ∀ w ∈ staged.fixedWeights default, w.id = e.id →
      w ∉ [⟨"a", 1250⟩, ⟨"b", 3750⟩] →
      e.weight.toUnit Policy.defaultEpsilon = Scale.tenThousand.decode w.count := by
    rw [hfixed]
    decide +kernel
  obtain ⟨t, e', hload, hcounts⟩ := hreload (by rw [hlength]; decide) (.inr (.inr hleft))
  exact ⟨d, _, staged, e, t, e', hstart, hfinish, rfl, hsession, hload, hcounts⟩

/-- A commit leaves a seeded weight that shifts all shares: an endpoint that the commit confirmed
with a half is loaded with a fifth. -/
theorem reload_after_commit_differs :
    let seeded : List (RawEntry String) :=
      [⟨"a", ⟨0.0625, none⟩⟩, ⟨"b", ⟨0.0625, none⟩⟩, ⟨"c", ⟨0.125, none⟩⟩]
    let c := (fresh default true default).after
      [.seed "t" seeded, .load "t", .edit "t" (.weight "a" 0.1), .edit "t" (.weight "c" 0.5),
        .startCommit "t", .finishCommit "t" .accepted]
    let reloaded := c.after [.load "t"]
    (c.board.session? "t").map (fun s => (s.state, s.confirmed.fixedWeights default)) =
        some (.clean, [⟨"a", 1250⟩, ⟨"b", 3750⟩, ⟨"c", 5000⟩]) ∧
      (reloaded.board.session? "t").map (fun s => (s.state, s.confirmed.fixedWeights default)) =
        some (.clean, [⟨"a", 2000⟩, ⟨"b", 6000⟩, ⟨"c", 2000⟩]) := by
  decide +kernel

end Coordinator

end TierBudget
