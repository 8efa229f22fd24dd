import TierBudget.Proofs.Coordinator.Independence
import TierBudget.Proofs.Difference
/-!
# Delayed loads

A load reads the store and then tracks the tier that it has read (`Step.track`). Where other callers
take steps in between, the tier that is tracked is still the one that was read, while the store
holds what was read under the plans that it has accepted since (`load_after`). So a delayed load is
as good as one at once if no commit of its tier was accepted in the gap (`track_after`); otherwise
it takes the confirmed tier back behind the commit.
-/

namespace TierBudget

namespace Coordinator

variable {c d : Coordinator} {s : Step} {r : Except TierError Answer} {id : String}
  {stored : List (RawEntry String)}

/-! ## The two halves of a load -/

/-- The second half of a load: the tier is tracked that the first half has read. -/
def Step.track (p : Policy) (id : String) (stored : List (RawEntry String)) : Step :=
  .insert (.ofStored p id stored)

theorem Board.insert_ofStored {b : Board} (p : Policy) (stored : List (RawEntry String))
    (hfree : b.IsFree id) :
    b.insert (.ofStored p id stored) = .ok (b.setSession id (.new (.ofStored p id stored))) := by
  have hid : (Tier.ofStored p id stored).id = id := Tier.id_ofStored ..
  have hinsert := Board.insert_of_isFree (hid.symm ▸ hfree)
  rwa [hid] at hinsert

theorem step_track (p : Policy) (stored : List (RawEntry String)) (hfree : c.board.IsFree id) :
    c.step (.track p id stored) =
      (.ok .done, { c with board := c.board.setSession id (.new (.ofStored p id stored)) }) := by
  rw [Step.track, step, Board.insert_ofStored p stored hfree]
  rfl

/-- A tier whose session is not saving can be loaded. -/
theorem step_load (hl : c.store.load id = .ok stored) (hfree : c.board.IsFree id) :
    c.step (.load id) = (.ok (.tier (.ofStored c.board.policy id stored)),
      { c with board := c.board.setSession id (.new (.ofStored c.board.policy id stored)) }) := by
  rw [step, Board.load, hl]
  change c.settle (c.board.insertStored id stored >>= _) = _
  rw [Board.insertStored, Board.insert_ofStored c.board.policy stored hfree]
  rfl

/-! ## What the store accepts -/

/-- The plan that the store has accepted for the tier. -/
def acceptedPlan? (id : String) : Step × Except TierError Answer → Option CommitPlan
  | (.finishCommit id' _, .ok (.plan plan)) => if id' = id then some plan else none
  | _ => none

/-- The plans that the store has accepted for the tier, in order. -/
def accepted (id : String) (run : List (Step × Except TierError Answer)) : List CommitPlan :=
  run.filterMap (acceptedPlan? id)

/-- The step writes the store by a commit or not at all. -/
def Step.WritesByCommit : Step → Prop
  | .seed .. | .put _ | .replaceStore _ => False
  | _ => True

/-- **One step** changes the entries of a tier by the plan that it accepts. -/
theorem Move.load_eq {c' : Coordinator} (h : Move c s r c') (hc : c.Consistent) (hk : c.Keyed)
    (hs : s.WritesByCommit) (hl : c.store.load id = .ok stored) :
    c'.store.scale = c.store.scale ∧ c'.store.load id =
      .ok ((acceptedPlan? id (s, r)).elim stored
        fun plan => Store.applyPlan c.store.scale plan stored) := by
  cases h with
  | fail s e hne =>
    have hnone : acceptedPlan? id (s, .error e) = none := by cases s <;> rfl
    exact ⟨rfl, hnone ▸ hl⟩
  | insert | load | edit | discard | start | idle | refuse => exact ⟨rfl, hl⟩
  | accept id' hp hs' ht =>
    have htier := hc.tierId_eq hk hp
    refine ⟨rfl, ?_⟩
    by_cases hid : id' = id
    · subst hid
      simp only [acceptedPlan?, if_true, Option.elim_some]
      exact (Store.load_put _ (htier.symm ▸ hl)).trans (if_pos htier.symm)
    · simp only [acceptedPlan?, if_neg hid, Option.elim_none]
      rw [Store.load, get?_put_of_ne fun he => hid (htier ▸ he.symm)]
      exact hl
  | stray _ _ _ _ hp hfree => exact absurd hfree (hc.not_isFree hp)
  | seed | put | replaceStore => cases hs

/-- **A run** changes the entries of a tier by the plans that it accepts. -/
theorem load_after (hc : c.Consistent) (hk : c.Keyed) {steps : List Step}
    (hs : ∀ s ∈ steps, s.WritesByCommit) (hl : c.store.load id = .ok stored) :
    (c.after steps).store.load id = .ok ((accepted id (c.trace steps)).foldl
      (fun entries plan => Store.applyPlan c.store.scale plan entries) stored) := by
  induction steps generalizing c stored with
  | nil => exact hl
  | cons s steps ih =>
    have hmove := move_step c s
    obtain ⟨hscale, hone⟩ := hmove.load_eq hc hk (hs s List.mem_cons_self) hl
    have hrest := ih (hmove.consistent hc) (hmove.keyed hk)
      (fun s' hs' => hs s' (List.mem_cons_of_mem s hs')) hone
    rw [after_cons, hrest, hscale, trace, accepted, accepted]
    cases hplan : acceptedPlan? id (s, (c.step s).1) with
    | none => rw [List.filterMap_cons_none hplan, Option.elim_none]
    | some plan => rw [List.filterMap_cons_some hplan, List.foldl_cons, Option.elim_some]

/-! ## Delayed loads -/

/-- **A delayed load** tracks the tier that was read. If no commit of the tier was accepted in the
gap, it leaves the state that a load at once leaves. -/
theorem track_after (hc : c.Consistent) (hk : c.Keyed) {gap : List Step}
    (hgap : ∀ s ∈ gap, s.WritesByCommit) (hread : c.store.load id = .ok stored)
    (hfree : (c.after gap).board.IsFree id) :
    ∃ e, (c.after gap).step (.track c.board.policy id stored) = (.ok .done, e) ∧
      e.board.session? id = some (.new (.ofStored c.board.policy id stored)) ∧
      e.store.load id = .ok ((accepted id (c.trace gap)).foldl
        (fun entries plan => Store.applyPlan c.store.scale plan entries) stored) ∧
      (accepted id (c.trace gap) = [] → e = ((c.after gap).step (.load id)).2) := by
  have hload := load_after hc hk hgap hread
  refine ⟨_, step_track c.board.policy stored hfree, by simp, hload, fun hnone => ?_⟩
  rw [hnone, List.foldl_nil] at hload
  rw [step_load hload hfree, policy_after]

/-- Clean sessions that are in step with the store follow it. -/
theorem synced_of_clean (p : Policy) (requireSettled : Bool) (store : Store) (before : List Step)
    (hscale : ((fresh p requireSettled store).after before).store.scale = p.scale)
    (hclean : ∀ id s, ((fresh p requireSettled store).after before).board.session? id = some s →
      s.state = .clean ∧ ∃ stored,
        ((fresh p requireSettled store).after before).store.load id = .ok stored ∧
        InStep p s.confirmed stored) :
    ((fresh p requireSettled store).after before).Synced := by
  have hp : ((fresh p requireSettled store).after before).board.policy = p := policy_after _ before
  refine ⟨hscale.trans (congrArg Policy.scale hp.symm),
    (consistent_fresh p requireSettled store).after before,
    (keyed_fresh p requireSettled store).after before, fun id s hs => ?_⟩
  obtain ⟨hstate, stored, hl, hstep⟩ := hclean id s hs
  exact ⟨stored, hl, hp.symm ▸ hstep, fun t ht => by simp [Session.staged?_eq_none hstate] at ht⟩

/-- A step that stays within the tiers of the board writes the store by a commit or not at all. -/
theorem Step.StaysWithin.writesByCommit (h : s.StaysWithin c) : s.WritesByCommit := by
  cases s with
  | insert | seed | put | replaceStore => cases h
  | load | edit | discard | startCommit | finishCommit => trivial

/-- The counts that a session follows are those that its entries are read as. -/
theorem Synced.counts_ofStored (hc : c.Synced) (hn : c.Fits) {s : Session}
    (hs : c.board.session? id = some s) (hl : c.store.load id = .ok stored) :
    (Tier.ofStored c.board.policy id stored).counts c.board.policy =
      s.confirmed.counts c.board.policy := by
  obtain ⟨_, hstored, hfollows⟩ := hc.follows id s hs
  rw [hl] at hstored
  cases hstored
  exact Tier.counts_eq_of_perm hfollows.inStep.nodup_ids
    (hfollows.inStep.perm_fixedWeights_ofStored (hn id s hs) id)

/-- **A delayed load takes the confirmed counts back** to those of the moment when the store was
read. So it agrees with the store if and only if the commits in the gap, taken together, changed no
count. -/
theorem delayed_load_agrees_iff (hc : c.Synced) (hread : c.store.load id = .ok stored)
    {before now : Session} (hbefore : c.board.session? id = some before) {gap : List Step}
    (hgap : ∀ s ∈ gap, s.StaysWithin c) (hfits : ∀ pre, pre <+: gap → (c.after pre).Fits)
    (hnow : (c.after gap).board.session? id = some now) (hfree : ¬ now.IsSaving) :
    let p := c.board.policy
    ∃ late current e, (c.after gap).step (.track p id stored) = (.ok .done, e) ∧
      e.board.session? id = some (.new late) ∧ e.store.load id = .ok current ∧
      late.counts p = before.confirmed.counts p ∧
      (late.counts p = (Tier.ofStored p id current).counts p ↔
        now.confirmed.counts p = before.confirmed.counts p) ∧
      (accepted id (c.trace gap) = [] → late = Tier.ofStored p id current) := by
  intro p
  have hsync : (c.after gap).Synced := hc.after hgap hfits
  have hfree' : (c.after gap).board.IsFree id := (Board.isFree_iff_of_session hnow).2 hfree
  obtain ⟨e, hstep, hsession, hload, -⟩ := track_after hc.consistent hc.keyed
    (fun s hs => (hgap s hs).writesByCommit) hread hfree'
  have hcurrent := load_after hc.consistent hc.keyed
    (fun s hs => (hgap s hs).writesByCommit) hread
  have hlate := hc.counts_ofStored (hfits [] List.nil_prefix) hbefore hread
  have hmoved := hsync.counts_ofStored (hfits gap (List.prefix_refl gap)) hnow hcurrent
  rw [policy_after] at hmoved
  refine ⟨_, _, e, hstep, hsession, hload, hlate, ?_, fun hnone => ?_⟩
  · rw [hlate, hmoved]
    exact eq_comm
  · rw [hnone, List.foldl_nil]

/-- A whole endpoint is read, another one is attached and committed, and the load goes on. -/
theorem delayed_load_agrees_iff_attach :
    let whole : RawEntry String := Store.wire .tenThousand ⟨"a", 10000⟩
    let c := (fresh default false default).after [.seed "t" [whole], .load "t"]
    let gap : List Step :=
      [.edit "t" (.attach "b"), .startCommit "t", .finishCommit "t" .accepted]
    ∃ late e, (c.after gap).step (.track default "t" [whole]) = (.ok .done, e) ∧
      e.board.session? "t" = some (.new late) ∧ late.counts default "b" = none := by
  intro whole c gap
  have hsessions : c.board.sessions.toList = [("t", .new (.ofStored default "t" [whole]))] := rfl
  have hbudget : (default : Policy).IsBudget ["a"] [⟨"a", 10000⟩] := ⟨rfl, rfl⟩
  have hsync : c.Synced := synced_of_clean default false default _ rfl fun id s hs => by
    have hmem := Catalogue.get?_eq_some_iff.1 hs
    rw [hsessions, List.mem_singleton, Prod.mk.injEq] at hmem
    obtain ⟨rfl, rfl⟩ := hmem
    exact ⟨rfl, [whole], rfl, InStep.ofStored_wire hbudget (by decide) (by decide) "t"⟩
  have hstate : ((c.after gap).board.session? "t").map Session.state = some .clean := by
    decide +kernel
  obtain ⟨now, hnow, hclean⟩ := Option.map_eq_some_iff.1 hstate
  have hread : c.store.load "t" = .ok [whole] := rfl
  have hbefore : c.board.session? "t" = some (.new (.ofStored default "t" [whole])) := rfl
  have hgap : ∀ s ∈ gap, s.StaysWithin c := by
    have hboard : (c.board.session? "t").isSome := rfl
    intro s hs
    simp only [gap, List.mem_cons, List.not_mem_nil, or_false] at hs
    rcases hs with rfl | rfl | rfl <;> exact hboard
  have hfits : ∀ pre, pre <+: gap → (c.after pre).Fits := by
    intro pre hpre
    rw [← List.mem_inits] at hpre
    revert pre
    decide +kernel
  have hfree : ¬ now.IsSaving := by simp [Session.IsSaving, hclean]
  obtain ⟨late, -, e, hstep, hsession, -, hcounts, -⟩ :=
    delayed_load_agrees_iff hsync hread hbefore hgap hfits hnow hfree
  exact ⟨late, e, hstep, hsession, (congrFun hcounts "b").trans (by decide +kernel)⟩

/-- A delayed load undoes a commit: an endpoint has three quarters in the store, and a half on the
board again. -/
theorem delayed_load_undoes_commit :
    let half : List (RawEntry String) :=
      [Store.wire .tenThousand ⟨"a", 5000⟩, Store.wire .tenThousand ⟨"b", 5000⟩]
    let c := (fresh default true default).after [.seed "t" half, .load "t"]
    let gap : List Step :=
      [.edit "t" (.weight "a" 0.75), .startCommit "t", .finishCommit "t" .accepted]
    let d := c.after gap
    let e := (d.step (.track default "t" half)).2
    accepted "t" (c.trace gap) = [⟨"t", [⟨"a", 7500⟩, ⟨"b", 2500⟩], []⟩] ∧
      (d.board.session? "t").map (·.confirmed.fixedWeights default) =
        some [⟨"a", 7500⟩, ⟨"b", 2500⟩] ∧
      e.board.session? "t" = c.board.session? "t" ∧
      (e.board.session? "t").map (·.confirmed.fixedWeights default) =
        some [⟨"a", 5000⟩, ⟨"b", 5000⟩] ∧
      e.store.tiers.get? "t" =
        some [Store.wire .tenThousand ⟨"a", 7500⟩, Store.wire .tenThousand ⟨"b", 2500⟩] := by
  decide +kernel

end Coordinator

end TierBudget
