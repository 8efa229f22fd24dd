import TierBudget.Proofs.Coordinator.DelayedLoad
import TierBudget.Proofs.Crowded
import TierBudget.Proofs.Decimal.Written
/-!
# A tier that is too large to be reloaded

What becomes of a commit that writes `2 ^ 26` endpoints to a store of another scale
(`Coordinator.reload_crowd`). The tier is left over when an endpoint with half of the scale is
detached, which doubles all other counts, so that the plan lists all of them. The store holds every
count, and yet the first endpoint is loaded with fewer units than it was committed with.
-/

namespace TierBudget

open Policy

variable {p : Policy} {gone first : String} {ids : List String}

/-- What holds one half of the scale, in half the counts of `crowd`. -/
def halfCrowd (first : String) (ids : List String) : List (FixedEntry String) :=
  ⟨first, 1006632960⟩ :: ids.map fun i => ⟨i, 1⟩

/-- A tier whose first endpoint holds the other half. -/
def wholeCrowd (gone first : String) (ids : List String) : List (FixedEntry String) :=
  ⟨gone, 1073741824⟩ :: halfCrowd first ids

/-- The tier of the given counts. -/
def crowdTier (p : Policy) (fixed : List (FixedEntry String)) : Tier := ⟨"t", p.ofFixed fixed⟩

theorem sum_halfCrowd (first : String) (ids : List String) :
    ((halfCrowd first ids).map fun e => e.count.toNat).sum = 1006632960 + ids.length := by
  have hfirst : (1006632960 : Count).toNat = 1006632960 := rfl
  have hother : (1 : Count).toNat = 1 := rfl
  rw [halfCrowd, List.map_cons, List.sum_cons, List.map_map, hfirst]
  simp only [Function.comp_def, hother, List.map_const', List.sum_replicate, smul_eq_mul, mul_one]

theorem toFixed_ofFixed_of_sum {l : List (FixedEntry String)} {k : ℕ}
    (hS : p.scale.size.toNat = 2 ^ k) (hsum : (l.map fun e => e.count.toNat).sum = 2 ^ k) :
    p.toFixed (p.ofFixed l) = l := by
  rw [toFixed_ofFixed_two_pow hS hsum le_rfl]
  simp

section

variable (hS : p.scale.size.toNat = 2 ^ 31) (hlen : ids.length = 2 ^ 26)
include hS hlen

theorem fixedWeights_wholeCrowd :
    (crowdTier p (wholeCrowd gone first ids)).fixedWeights p = wholeCrowd gone first ids := by
  refine toFixed_ofFixed_of_sum hS ?_
  have hgone : (1073741824 : Count).toNat = 1073741824 := rfl
  rw [wholeCrowd, List.map_cons, List.sum_cons, sum_halfCrowd, hgone, hlen]
  norm_num

/-- What is left of the tier has twice the counts. -/
theorem toFixed_halfCrowd : p.toFixed (p.ofFixed (halfCrowd first ids)) = crowd first ids := by
  have hsum : ((halfCrowd first ids).map fun e => e.count.toNat).sum = 2 ^ 30 := by
    rw [sum_halfCrowd, hlen]
    norm_num
  have hfirst : UInt32.ofNat ((1006632960 : Count).toNat * 2 ^ (31 - 30)) = 2013265920 := by decide
  have hother : UInt32.ofNat ((1 : Count).toNat * 2 ^ (31 - 30)) = 2 := by decide
  rw [toFixed_ofFixed_two_pow hS hsum (by norm_num), halfCrowd, crowd, List.map_cons, List.map_map]
  simp only [Function.comp_def, hfirst, hother]

theorem fixedWeights_crowd : (crowdTier p (crowd first ids)).fixedWeights p = crowd first ids := by
  refine toFixed_ofFixed_of_sum hS ?_
  rw [← toFixed_halfCrowd hS hlen]
  exact (p.isBudget_toFixed (by simp [halfCrowd, ofFixed])).sum_eq.trans hS

theorem detach_wholeCrowd :
    (crowdTier p (wholeCrowd gone first ids)).detach p gone = .ok (crowdTier p (crowd first ids)) := by
  have hdetach : p.detach (p.ofFixed (wholeCrowd gone first ids)) gone =
      some (p.normalize (p.ofFixed (halfCrowd first ids))) := by
    rw [detach_of_mem p (by simp [wholeCrowd])]
    simp [wholeCrowd, ofFixed]
  rw [Tier.detach, crowdTier, hdetach, Policy.normalize, toFixed_halfCrowd hS hlen]
  rfl

/-- The plan lists every endpoint that is left. -/
theorem between_crowd (hids : (gone :: first :: ids).Nodup) :
    CommitPlan.between p (crowdTier p (wholeCrowd gone first ids)) (crowdTier p (crowd first ids)) =
      ⟨"t", crowd first ids, [gone]⟩ := by
  have hwhole : (crowdTier p (wholeCrowd gone first ids)).ids = gone :: first :: ids := by
    simp [crowdTier, Tier.ids, wholeCrowd, halfCrowd, ofFixed, Function.comp_def]
  have hstaged : (crowdTier p (crowd first ids)).ids = first :: ids := by
    simp [crowdTier, Tier.ids, crowd, ofFixed, Function.comp_def]
  have hnodup : ((wholeCrowd gone first ids).map FixedEntry.id).Nodup := by
    rwa [← fixedWeights_wholeCrowd hS hlen, Tier.map_id_fixedWeights, hwhole]
  have hupdates : (crowd first ids).filter (fun w =>
      CommitPlan.countOf? (wholeCrowd gone first ids) w.id ≠ some w.count) = crowd first ids := by
    refine List.filter_eq_self.2 fun w hw => decide_eq_true ?_
    rcases List.mem_cons.1 hw with rfl | hw
    · rw [CommitPlan.countOf?_eq_some hnodup (w := ⟨first, 1006632960⟩)
        (List.mem_cons_of_mem _ List.mem_cons_self)]
      exact fun h => absurd (Option.some.inj h) (show (1006632960 : Count) ≠ 2013265920 by decide)
    · obtain ⟨i, hi, rfl⟩ := List.mem_map.1 hw
      rw [CommitPlan.countOf?_eq_some hnodup (w := ⟨i, 1⟩)
        (List.mem_cons_of_mem _ (List.mem_cons_of_mem _ (List.mem_map_of_mem hi)))]
      exact fun h => absurd (Option.some.inj h) (show (1 : Count) ≠ 2 by decide)
  have hremoved : (gone :: first :: ids).filter (fun i =>
      !(crowdTier p (crowd first ids)).contains i) = [gone] := by
    rw [List.nodup_cons] at hids
    rw [List.filter_cons_of_pos (by simpa [Tier.contains, hstaged] using hids.1),
      List.filter_eq_nil_iff.2 fun i hi => by
        simpa [Tier.contains, hstaged, or_iff_not_imp_left] using hi]
  rw [CommitPlan.between, fixedWeights_wholeCrowd hS hlen, fixedWeights_crowd hS hlen, hwhole,
    hupdates, hremoved]
  rfl

/-- What is loaded has the counts that the store's units are rescaled to. -/
theorem fixedWeights_reload {s : Scale} :
    (Tier.ofStored p "t" ((crowd first ids).map (Store.wire s))).fixedWeights p =
      p.toFixed ((crowd first ids).map fun e => ⟨e.id, s.decode e.count⟩) := by
  have hone : (crowd first ids).length ≠ 1 := by simp [crowd, hlen]
  rw [Tier.fixedWeights, Tier.entries_ofStored p s hone]
  exact toFixed_ofFixed_of_sum hS ((p.isBudget_toFixed (by simp [crowd])).sum_eq.trans hS)

end

/-! ## As many ids as one likes -/

theorem decimalText_injective : Function.Injective decimalText := fun m n h => by
  have hdigits : digitsOf m = digitsOf n := String.ofList_inj.1 h
  rw [← ofDigits_digitsOf m, hdigits, ofDigits_digitsOf]

theorem nodup_decimalTexts (n : ℕ) :
    (decimalText 0 :: decimalText 1 :: (List.range' 2 n).map decimalText).Nodup := by
  change ((List.range' 0 (n + 2)).map decimalText).Nodup
  exact List.Nodup.map decimalText_injective List.nodup_range'

/-! ## The run -/

namespace Coordinator

variable {s : Scale}

/-- The first edit on a new board that lets vacated tiers pass, committed at once. -/
theorem isWaiting_of_fresh (s : Scale) {t t' : Tier} {e : Session.Edit}
    (he : e.apply p t = .ok t') :
    let c := (fresh p false (.new s)).after [.insert t, .edit t.id e, .startCommit t.id]
    c.IsWaiting t.id t t' ∧ c.store = .new s := by
  have hinsert := step_insert (c := fresh p false (.new s)) (t := t) fun _ h => by cases h
  have hsession : ((fresh p false (.new s)).step (.insert t)).2.board.session? t.id =
      some ⟨t, .clean⟩ := by
    rw [hinsert]
    exact (Board.session?_setSession ..).trans (if_pos rfl)
  have hpolicy : ((fresh p false (.new s)).step (.insert t)).2.board.policy = p := by
    rw [hinsert]
    rfl
  obtain ⟨hwait, hstore⟩ := isWaiting_after_edit hsession (by rwa [hpolicy]) (by rw [hinsert]; rfl)
  exact ⟨hwait, hstore.trans (by rw [hinsert]; rfl)⟩

/-- What a store without the tier holds after its first plan. -/
theorem load_of_accepted {c d : Coordinator} {id : String} {plan : CommitPlan} (hc : c.Consistent)
    (hk : c.Keyed) (h : c.step (.finishCommit id .accepted) = (.ok (.plan plan), d))
    (hnew : c.store = .new s) (hu : (plan.updates.map FixedEntry.id).Nodup) :
    d.store.load id = .ok (plan.updates.map (Store.wire s)) := by
  obtain ⟨-, -, -, rfl, -, hput, -⟩ := accepted_plan hc hk h
  rw [hput, hnew, Store.load_put_tierId]
  exact congrArg Except.ok (Store.applyPlan_nil s hu)

/-- **Too many endpoints for their counts to come back.** The commit is accepted, the store holds
what the plan lists and nothing else, and its scale holds every count. -/
theorem reload_crowd (hS : p.scale.size.toNat = 2 ^ 31) (hs : s.size.toNat = 2147483775)
    (hlen : ids.length = 2 ^ 26) (hids : (gone :: first :: ids).Nodup) :
    let c := (fresh p false (.new s)).after
      [.insert (crowdTier p (wholeCrowd gone first ids)), .edit "t" (.detach gone), .startCommit "t"]
    ∃ d t e, c.step (.finishCommit "t" .accepted) =
        (.ok (.plan ⟨"t", crowd first ids, [gone]⟩), d) ∧
      d.board.session? "t" = some ⟨crowdTier p (crowd first ids), .clean⟩ ∧
      (crowdTier p (crowd first ids)).counts p first = some 2013265920 ∧
      d.step (.load "t") = (.ok (.tier t), e) ∧
      ∃ n, t.counts p first = some n ∧ n < 2013265920 := by
  intro c
  have hnodup : ((crowd first ids).map FixedEntry.id).Nodup := by
    rw [crowd, List.map_cons, List.map_map]
    simpa [Function.comp_def] using (List.nodup_cons.1 hids).2
  have hwait : c.IsWaiting "t" _ _ ∧ c.store = .new s :=
    isWaiting_of_fresh s (e := .detach gone) (detach_wholeCrowd hS hlen)
  have hcp : c.board.policy = p := policy_after ..
  obtain ⟨d, haccept, hclean⟩ := hwait.1.accepted
  rw [hcp, between_crowd hS hlen hids] at haccept
  have hload := load_of_accepted ((consistent_fresh p false (.new s)).after _)
    ((keyed_fresh p false (.new s)).after _) haccept hwait.2 hnodup
  have hfree : d.board.IsFree "t" :=
    (Board.isFree_iff_of_session hclean).2 (Session.not_isSaving_clean _)
  have hdp : d.board.policy = p := by
    have hkept := policy_after c [.finishCommit "t" .accepted]
    rwa [after_cons, after_nil, haccept, hcp] at hkept
  obtain ⟨n, hmem, hlt⟩ := exists_mem_toFixed_crowd hS hs first hlen
  refine ⟨d, _, _, haccept, hclean, (Tier.counts_eq_some_iff ?_).2 ?_, step_load hload hfree, n,
    ?_, UInt32.lt_iff_toNat_lt.2 hlt⟩
  · rwa [← Tier.map_id_fixedWeights p, fixedWeights_crowd hS hlen]
  · rw [fixedWeights_crowd hS hlen]
    exact List.mem_cons_self
  · rw [hdp]
    refine (Tier.counts_eq_some_iff ?_).2 ?_
    · rw [Tier.ids_ofStored, List.map_map]
      exact hnodup
    · rw [fixedWeights_reload hS hlen]
      exact hmem

end Coordinator

end TierBudget
