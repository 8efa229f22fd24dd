import TierBudget.Proofs.Coordinator.Isolation
import TierBudget.Proofs.InStep
/-!
# Board and store stay in step

While the store is written by commits alone, every session follows the entries that the store holds
for its tier (`Session.Follows`): its confirmed tier is in step with them, and what is staged can
become confirmed. `Move.synced` shows this for each move, `Synced.after` for each run. The moves
that count are the two that read or write the store: a load brings back the counts that were there,
and an accepted plan leads the store from the confirmed tier to the staged one.
-/

namespace TierBudget

namespace Session

variable {p : Policy} {s : Session} {t : Tier}

/-- The session follows the stored entries. -/
structure Follows (p : Policy) (stored : List (RawEntry String)) (s : Session) : Prop where
  inStep : InStep p s.confirmed stored
  nodup_staged : ∀ t, s.staged? = some t → t.ids.Nodup

theorem follows_clean {stored : List (RawEntry String)} (h : InStep p t stored) :
    Follows p stored ⟨t, .clean⟩ := ⟨h, fun _ ht => by cases ht⟩

theorem Follows.nodup_current {stored : List (RawEntry String)} (h : s.Follows p stored) :
    s.current.ids.Nodup := current_induction h.inStep.nodup_ids h.nodup_staged

end Session

namespace Coordinator

variable {c c' : Coordinator} {s : Step} {r : Except TierError Answer}

/-! ## The ids of sessions -/

/-- Sessions are kept under the ids of their tiers. -/
def Keyed (c : Coordinator) : Prop := ∀ id s, c.board.session? id = some s → s.HasId id

theorem keyed_fresh (p : Policy) (requireSettled : Bool) (store : Store) :
    (fresh p requireSettled store).Keyed := fun _ _ h => by cases h

theorem Move.keyed (h : Move c s r c') (hc : c.Keyed) : c'.Keyed := by
  intro id now hnow
  by_cases hid : s.tierId? = some id
  · cases h with
    | fail | idle => exact hc id now hnow
    | insert _ hfree =>
      cases hid
      obtain rfl := Board.eq_of_session?_setSession hnow
      exact Session.hasId_clean rfl
    | load _ hl hfree =>
      cases hid
      obtain rfl := Board.eq_of_session?_setSession hnow
      exact Session.hasId_clean (Tier.id_ofStored ..)
    | edit _ hs hfree ht =>
      cases hid
      obtain rfl := Board.eq_of_session?_setSession hnow
      refine ⟨(hc _ _ hs).confirmed, fun _ hstaged => ?_⟩
      cases hstaged
      exact (Session.Edit.id_apply ht).trans (hc _ _ hs).current
    | discard _ hs hfree =>
      cases hid
      obtain rfl := Board.eq_of_session?_setSession hnow
      exact Session.hasId_clean (hc _ _ hs).confirmed
    | start _ hs hdirty hset =>
      cases hid
      obtain rfl := Board.eq_of_session?_setSession hnow
      refine ⟨(hc _ _ hs).confirmed, fun _ hstaged => ?_⟩
      cases hstaged
      exact (hc _ _ hs).staged _ (Session.staged?_eq_of_dirty hdirty)
    | accept _ hp hs ht =>
      cases hid
      obtain rfl := Board.eq_of_session?_setSession hnow
      exact Session.hasId_clean ((hc _ _ hs).staged _ (Session.staged?_eq_of_saving ht))
    | refuse _ hp hs ht =>
      cases hid
      obtain rfl := Board.eq_of_session?_setSession hnow
      exact Session.hasId_clean (hc _ _ hs).confirmed
    | stray => exact hc id now hnow
    | seed | put | replaceStore => cases hid
  · exact hc id now ((h.frame hid).1 ▸ hnow)

theorem Keyed.after (hc : c.Keyed) (steps : List Step) : (c.after steps).Keyed :=
  after_induction hc fun _ _ _ _ _ hc h => h.keyed hc

/-- A plan that waits for a tier is one of this tier. -/
theorem Consistent.tierId_eq (hc : c.Consistent) (hk : c.Keyed) {id : String}
    {plan : CommitPlan} (hp : c.inFlight.get? id = some plan) : plan.tierId = id := by
  rw [hc id] at hp
  obtain ⟨s, hs, hopen⟩ := Option.bind_eq_some_iff.1 hp
  unfold Session.openPlan? at hopen
  split at hopen
  · next t ht =>
    cases hopen
    exact (hk id s hs).staged t (Session.staged?_eq_of_saving ht)
  · cases hopen

/-- The plan that the store has accepted leads to the tier that is confirmed then. -/
theorem accepted_plan {d : Coordinator} {id : String} {plan : CommitPlan} (hc : c.Consistent)
    (hk : c.Keyed) (h : c.step (.finishCommit id .accepted) = (.ok (.plan plan), d)) :
    ∃ old t, plan = .between c.board.policy old t ∧ plan.tierId = id ∧
      d.board.session? id = some ⟨t, .clean⟩ ∧ d.store = c.store.put plan ∧
      d.board.policy = c.board.policy := by
  have hm := move_step c (.finishCommit id .accepted)
  rw [h] at hm
  have hp := hm.policy_eq
  cases hm with
  | @accept _ _ s t hplan hs ht =>
    refine ⟨s.confirmed, t, ?_, hc.tierId_eq hk hplan, by simp, rfl, rfl⟩
    rw [hc.get?_of_session hs, Session.openPlan?, ht] at hplan
    exact (Option.some.inj hplan).symm

/-! ## Steps on the tiers of a board -/

/-- The step works on a tier that the board has, and writes the store by a commit or not at all. -/
def Step.StaysWithin (c : Coordinator) : Step → Prop
  | .load id | .edit id _ | .discard id | .startCommit id | .finishCommit id _ =>
    (c.board.session? id).isSome
  | .insert _ | .seed .. | .put _ | .replaceStore _ => False

/-- A board never loses a tier. -/
theorem Move.isSome_session? (h : Move c s r c') {id : String}
    (hid : (c.board.session? id).isSome) : (c'.board.session? id).isSome := by
  by_cases hs : s.tierId? = some id
  · cases h <;> simp_all [Step.tierId?]
  · rwa [(h.frame hs).1]

theorem Move.staysWithin (h : Move c s r c') {next : Step} (hn : next.StaysWithin c) :
    next.StaysWithin c' := by
  cases next with
  | load | edit | discard | startCommit | finishCommit => exact h.isSome_session? hn
  | insert | seed | put | replaceStore => exact hn

/-! ## The invariant -/

/-- Every session follows the entries that the store holds for its tier. -/
structure Synced (c : Coordinator) : Prop where
  scale_eq : c.store.scale = c.board.policy.scale
  consistent : c.Consistent
  keyed : c.Keyed
  follows : ∀ id s, c.board.session? id = some s →
    ∃ stored, c.store.load id = .ok stored ∧ s.Follows c.board.policy stored

/-- The confirmed tiers are so small that the wire form tells their counts apart. -/
def Fits (c : Coordinator) : Prop :=
  ∀ id s, c.board.session? id = some s →
    s.confirmed.entries.length * c.board.policy.scale.size.toNat ≤ 2 ^ 50

theorem fits_iff : c.Fits ↔ ∀ x ∈ c.board.sessions.toList,
    x.2.confirmed.entries.length * c.board.policy.scale.size.toNat ≤ 2 ^ 50 :=
  ⟨fun h x hx => h x.1 x.2 (Catalogue.get?_eq_some_iff.2 hx),
    fun h _ _ hs => h _ (Catalogue.get?_eq_some_iff.1 hs)⟩

instance : DecidablePred Fits := fun _ => decidable_of_iff' _ fits_iff

/-- The plan that an answer applies is the one between the tiers of its session. -/
theorem Synced.plan_eq (hc : c.Synced) {id : String} {plan : CommitPlan} {s : Session} {t : Tier}
    (hp : c.inFlight.get? id = some plan) (hs : c.board.session? id = some s)
    (ht : s.stage = .saving t) :
    plan = .between c.board.policy s.confirmed t ∧ plan.tierId = id := by
  obtain rfl : CommitPlan.between c.board.policy s.confirmed t = plan := by
    rw [hc.consistent.get?_of_session hs, Session.openPlan?, ht] at hp
    exact Option.some.inj hp
  exact ⟨rfl, (hc.keyed id s hs).staged t (Session.staged?_eq_of_saving ht)⟩

/-- The store changes for the tier of the step alone. -/
theorem Move.load_frame (h : Move c s r c') (hc : c.Synced) (hs : s.StaysWithin c) {id : String}
    (hid : s.tierId? ≠ some id) : c'.store.load id = c.store.load id := by
  cases h with
  | fail | load | edit | discard | start | idle | refuse => rfl
  | accept id' hp hs' ht =>
    obtain ⟨rfl, htier⟩ := hc.plan_eq hp hs' ht
    obtain ⟨stored, hl, -⟩ := hc.follows id' _ hs'
    rw [Store.load_put id (htier.symm ▸ hl), if_neg]
    rw [htier]
    exact fun he => hid (congrArg some he.symm)
  | stray _ _ _ _ hp hfree => exact absurd hfree (hc.consistent.not_isFree hp)
  | insert | seed | put | replaceStore => cases hs

theorem Move.scale_eq (h : Move c s r c') (hc : c.Synced) (hs : s.StaysWithin c) :
    c'.store.scale = c.store.scale := by
  cases h with
  | stray _ _ _ _ hp hfree => exact absurd hfree (hc.consistent.not_isFree hp)
  | replaceStore => cases hs
  | fail | insert | load | edit | discard | start | idle | accept | refuse | seed | put => rfl

/-- The session of the step's tier still follows the store. -/
theorem Move.follows (h : Move c s r c') (hc : c.Synced) (hs : s.StaysWithin c) (hn : c.Fits)
    {id : String} (hid : s.tierId? = some id) {now : Session}
    (hnow : c'.board.session? id = some now) :
    ∃ stored, c'.store.load id = .ok stored ∧ now.Follows c.board.policy stored := by
  cases h with
  | fail | idle => exact hc.follows id now hnow
  | load _ hl hfree =>
    cases hid
    obtain rfl := Board.eq_of_session?_setSession hnow
    -- the entries that are read are those that the session before followed
    obtain ⟨old, hold⟩ := Option.isSome_iff_exists.1 hs
    obtain ⟨stored, hstored, hfollows⟩ := hc.follows _ old hold
    rw [hl] at hstored
    cases hstored
    exact ⟨_, hl, Session.follows_clean (hfollows.inStep.reload (hn _ _ hold) _)⟩
  | edit _ hs' hfree ht =>
    cases hid
    obtain rfl := Board.eq_of_session?_setSession hnow
    obtain ⟨stored, hl, hfollows⟩ := hc.follows _ _ hs'
    refine ⟨stored, hl, hfollows.inStep, fun _ hstaged => ?_⟩
    cases hstaged
    exact Session.Edit.nodup_apply ht hfollows.nodup_current
  | discard _ hs' hfree =>
    cases hid
    obtain rfl := Board.eq_of_session?_setSession hnow
    obtain ⟨stored, hl, hfollows⟩ := hc.follows _ _ hs'
    exact ⟨stored, hl, Session.follows_clean hfollows.inStep⟩
  | start _ hs' hdirty hset =>
    cases hid
    obtain rfl := Board.eq_of_session?_setSession hnow
    obtain ⟨stored, hl, hfollows⟩ := hc.follows _ _ hs'
    refine ⟨stored, hl, hfollows.inStep, fun _ hstaged => ?_⟩
    cases hstaged
    exact hfollows.nodup_staged _ (Session.staged?_eq_of_dirty hdirty)
  | accept _ hp hs' ht =>
    cases hid
    obtain rfl := Board.eq_of_session?_setSession hnow
    obtain ⟨rfl, htier⟩ := hc.plan_eq hp hs' ht
    obtain ⟨stored, hl, hfollows⟩ := hc.follows _ _ hs'
    have hstaged := hfollows.nodup_staged _ (Session.staged?_eq_of_saving ht)
    refine ⟨_, (Store.load_put id (htier.symm ▸ hl)).trans (if_pos htier.symm), ?_⟩
    rw [hc.scale_eq]
    exact Session.follows_clean (hfollows.inStep.applyPlan hstaged)
  | refuse _ hp hs' ht =>
    cases hid
    obtain rfl := Board.eq_of_session?_setSession hnow
    obtain ⟨stored, hl, hfollows⟩ := hc.follows _ _ hs'
    exact ⟨stored, hl, Session.follows_clean hfollows.inStep⟩
  | stray _ _ _ _ hp hfree => exact absurd hfree (hc.consistent.not_isFree hp)
  | insert | seed | put | replaceStore => cases hs

/-- **Every move keeps the sessions following the store.** -/
theorem Move.synced (h : Move c s r c') (hc : c.Synced) (hs : s.StaysWithin c) (hn : c.Fits) :
    c'.Synced := by
  refine ⟨?_, h.consistent hc.consistent, h.keyed hc.keyed, fun id now hnow => ?_⟩
  · rw [h.scale_eq hc hs, hc.scale_eq, h.policy_eq]
  · rw [h.policy_eq]
    by_cases hid : s.tierId? = some id
    · exact h.follows hc hs hn hid hnow
    · rw [h.load_frame hc hs hid]
      exact hc.follows id now ((h.frame hid).1 ▸ hnow)

/-- **Every run keeps the sessions following the store.** -/
theorem Synced.after (hc : c.Synced) {steps : List Step} (hs : ∀ s ∈ steps, s.StaysWithin c)
    (hn : ∀ pre, pre <+: steps → (c.after pre).Fits) : (c.after steps).Synced := by
  induction steps generalizing c with
  | nil => exact hc
  | cons s steps ih =>
    have hmove := move_step c s
    refine ih (hmove.synced hc (hs s List.mem_cons_self) (hn [] List.nil_prefix)) ?_ ?_
    · exact fun s' hs' => hmove.staysWithin (hs s' (List.mem_cons_of_mem _ hs'))
    · exact fun pre hpre => hn (s :: pre) (List.cons_prefix_cons.2 ⟨rfl, hpre⟩)

/-! ## Loading -/

/-- **A load that succeeds keeps every confirmed count.** -/
theorem Synced.countOf?_load (hc : c.Synced) (hn : c.Fits) {id : String} {a : Answer}
    (h : c.step (.load id) = (.ok a, c')) {tier : String} {s : Session}
    (hs : c.board.session? tier = some s) :
    ∃ s', c'.board.session? tier = some s' ∧ ∀ endpoint,
      CommitPlan.countOf? (s'.confirmed.fixedWeights c.board.policy) endpoint =
        CommitPlan.countOf? (s.confirmed.fixedWeights c.board.policy) endpoint := by
  have hmove := move_step c (.load id)
  rw [h] at hmove
  cases hmove with
  | @load _ stored hl hfree =>
    by_cases hid : tier = id
    · subst hid
      obtain ⟨_, hstored, hfollows⟩ := hc.follows tier s hs
      rw [hl] at hstored
      cases hstored
      have hperm := hfollows.inStep.perm_fixedWeights_ofStored (hn tier s hs) tier
      have hnodup := InStep.nodup_fixedWeights (p := c.board.policy) hfollows.inStep.nodup_ids
      refine ⟨.new (.ofStored c.board.policy tier stored), by simp, fun endpoint => ?_⟩
      exact (CommitPlan.countOf?_eq_of_perm hnodup hperm.symm endpoint).symm
    · exact ⟨s, by simp [hid, hs], fun _ => rfl⟩

/-! ## Runs -/

/-- **Board and store stay in step.** Let every session of a board be clean and in step with the
store, in any state that a new board can come to. Whatever is then done with these tiers, in any
order, commits that the store accepts or refuses included: every session that is not saving is in
step, and a load that succeeds leaves all confirmed counts as they were. -/
theorem board_stays_in_step (p : Policy) (requireSettled : Bool) (store : Store)
    (before steps : List Step) :
    let c := (fresh p requireSettled store).after before
    c.store.scale = p.scale →
    (∀ id s, c.board.session? id = some s → s.state = .clean ∧
      ∃ stored, c.store.load id = .ok stored ∧ InStep p s.confirmed stored) →
    (∀ s ∈ steps, s.StaysWithin c) →
    (∀ pre, pre <+: steps → (c.after pre).Fits) →
    let d := c.after steps
    (∀ id s, d.board.session? id = some s → ¬ s.IsSaving →
      ∃ stored, d.store.load id = .ok stored ∧ InStep p s.confirmed stored) ∧
    ∀ id a d', d.step (.load id) = (.ok a, d') → ∀ tier s, d.board.session? tier = some s →
      ∃ s', d'.board.session? tier = some s' ∧ ∀ endpoint,
        CommitPlan.countOf? (s'.confirmed.fixedWeights p) endpoint =
          CommitPlan.countOf? (s.confirmed.fixedWeights p) endpoint := by
  intro c hscale hclean hsteps hfits d
  have hp : c.board.policy = p := policy_after _ before
  have hd : d.board.policy = p := (policy_after c steps).trans hp
  have hc : c.Synced := by
    refine ⟨hscale.trans (congrArg Policy.scale hp.symm),
      (consistent_fresh p requireSettled store).after before,
      (keyed_fresh p requireSettled store).after before, fun id s hs => ?_⟩
    obtain ⟨hstate, stored, hl, hstep⟩ := hclean id s hs
    exact ⟨stored, hl, hp ▸ hstep, fun t ht => by simp [Session.staged?_eq_none hstate] at ht⟩
  have hsync : d.Synced := hc.after hsteps hfits
  refine ⟨fun id s hs _ => ?_, fun id a d' hload tier s hs => ?_⟩
  · obtain ⟨stored, hl, hfollows⟩ := hsync.follows id s hs
    exact ⟨stored, hl, hd ▸ hfollows.inStep⟩
  · have hkeep := hsync.countOf?_load (hfits steps (List.prefix_refl _)) hload hs
    rwa [hd] at hkeep

/-- An endpoint is attached to a stored tier and committed. -/
theorem board_stays_in_step_attach :
    let whole : RawEntry String := Store.wire .tenThousand ⟨"a", 10000⟩
    let c := (fresh default false default).after [.seed "t" [whole], .load "t"]
    let d := c.after [.edit "t" (.attach "b"), .startCommit "t", .finishCommit "t" .accepted]
    ∃ s stored, d.board.session? "t" = some s ∧ s.confirmed.ids = ["a", "b"] ∧
      d.store.load "t" = .ok stored ∧ InStep default s.confirmed stored := by
  intro whole c d
  have hsessions : c.board.sessions.toList = [("t", .new (.ofStored default "t" [whole]))] := rfl
  have hbudget : (default : Policy).IsBudget ["a"] [⟨"a", 10000⟩] := ⟨rfl, rfl⟩
  have hstep := (board_stays_in_step default false default [.seed "t" [whole], .load "t"]
    [.edit "t" (.attach "b"), .startCommit "t", .finishCommit "t" .accepted] rfl
    (fun id s hs => by
      have hmem := Catalogue.get?_eq_some_iff.1 hs
      rw [hsessions, List.mem_singleton, Prod.mk.injEq] at hmem
      obtain ⟨rfl, rfl⟩ := hmem
      exact ⟨rfl, [whole], rfl, InStep.ofStored_wire hbudget (by decide) (by decide) "t"⟩)
    (fun s hs => by
      have hboard : (c.board.session? "t").isSome := rfl
      simp only [List.mem_cons, List.not_mem_nil, or_false] at hs
      rcases hs with rfl | rfl | rfl <;> exact hboard)
    (fun pre hpre => by
      rw [← List.mem_inits] at hpre
      revert pre
      decide +kernel)).1
  have hids : (d.board.session? "t").map (fun s => (s.state, s.confirmed.ids)) =
      some (.clean, ["a", "b"]) := by decide +kernel
  obtain ⟨s, hs, hprod⟩ := Option.map_eq_some_iff.1 hids
  obtain ⟨hstate, hattached⟩ := Prod.mk.inj hprod
  obtain ⟨stored, hl, h⟩ := hstep "t" s hs (by simp [Session.IsSaving, hstate])
  exact ⟨s, stored, hs, hattached, hl, h⟩

end Coordinator

end TierBudget
