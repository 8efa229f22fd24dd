import TierBudget.Proofs.Plans
import TierBudget.Proofs.Session.Calls
import TierBudget.Proofs.Settled
/-!
# The gate of a commit

A session may ask that the tier to be committed is settled. Whatever tier the session started from
and whatever was called since, what it has staged is the result of an edit, hence on the grid
(`Session.stagedOnGrid_after`); so the gate lets it through exactly if no endpoint is without a
count, and names all those that are if it does not (`Session.gate_opens_iff_settled`).
-/

namespace TierBudget

namespace Session

variable {p : Policy} {s s' : Session} {t : Tier} {c : Call} {r : Except TierError Reply}

theorem requireSettled_of_onGrid (h : t.OnGrid p)
    (hn : t.entries.length * p.scale.size.toNat ≤ 2 ^ 50) :
    requireSettled p true t =
      if t.weightless p = [] then .ok () else .error (.vacatedEndpoints (t.weightless p)) := by
  rw [requireSettled, if_pos rfl, h.isSettled?_eq hn, h.vacated_eq hn]
  by_cases hnil : t.weightless p = [] <;> simp [hnil]

/-! ## What is staged -/

/-- What is staged is on the grid. -/
def StagedOnGrid (p : Policy) (s : Session) : Prop := ∀ t, s.staged? = some t → t.OnGrid p

theorem stagedOnGrid_clean (p : Policy) (confirmed : Tier) :
    StagedOnGrid p ⟨confirmed, .clean⟩ := fun _ h => by cases h

theorem Move.stagedOnGrid (h : Move p s c r s') (hs : s.StagedOnGrid p) : s'.StagedOnGrid p := by
  cases h with
  | refuse => exact hs
  | edit hfree ht =>
    intro _ hstaged
    cases hstaged
    exact Edit.onGrid_apply ht
  | discard | complete | fail => exact stagedOnGrid_clean p _
  | begin _ hdirty hset =>
    intro _ hstaged
    cases hstaged
    exact hs _ (staged?_eq_of_dirty hdirty)

/-- **Whatever is staged under one policy is on its grid**, if the confirmed tier is or not. -/
theorem stagedOnGrid_after (p : Policy) (confirmed : Tier) (calls : List Call) :
    ((new confirmed).after (calls.map (p, ·))).StagedOnGrid p := by
  refine after_induction (stagedOnGrid_clean p confirmed) fun x hx s r s' hs h => ?_
  obtain ⟨c, -, rfl⟩ := List.mem_map.1 hx
  exact h.stagedOnGrid hs

/-! ## The gate -/

theorem step_beginCommit (hdirty : s.stage = .dirty t)
    (h : requireSettled p true t = .ok ()) :
    s.step p (.beginCommit true) =
      (.ok (.plan (.between p s.confirmed t)), { s with stage := .saving t }) := by
  have hbegin := beginCommit_eq_ok.2 ⟨t, hdirty, h, rfl, rfl⟩
  simp [step, call, hbegin, bind, Except.bind, pure, Except.pure]

theorem step_beginCommit_error {e : TierError} (hdirty : s.stage = .dirty t)
    (h : requireSettled p true t = .error e) :
    s.step p (.beginCommit true) = (.error e, s) := by
  simp [step, call, beginCommit, hdirty, h, bind, Except.bind]

/-- **The gate lets settled tiers through and no others.** A session starts from any tier, and any
calls are made under one policy. If a tier is then staged, a commit that asks for a settled tier
begins exactly if the tier has at most one endpoint or every endpoint has a count, which is the same
count whether it is encoded alone or with the others; otherwise the endpoints without a count are
reported and nothing changes. So the plans that are issued have no update to zero. -/
theorem gate_opens_iff_settled (p : Policy) (confirmed staged : Tier) (calls : List Call) :
    let s := (new confirmed).after (calls.map (p, ·))
    s.stage = .dirty staged → staged.entries.length * p.scale.size.toNat ≤ 2 ^ 50 →
    let settled := staged.entries.length ≤ 1 ∨ ∀ w ∈ staged.fixedWeights p, 1 ≤ w.count
    let without := ((staged.fixedWeights p).filter (·.count = 0)).map FixedEntry.id
    (staged.entries.map fun e => p.scale.encode e.unit) =
      (staged.fixedWeights p).map FixedEntry.count ∧
    ((∃ plan s', s.step p (.beginCommit true) = (.ok (.plan plan), s')) ↔ settled) ∧
    (¬ settled → without ≠ [] ∧
      s.step p (.beginCommit true) = (.error (.vacatedEndpoints without), s)) ∧
    ∀ plan s', s.step p (.beginCommit true) = (.ok (.plan plan), s') →
      ∀ u ∈ plan.updates, 1 ≤ u.count := by
  intro s hdirty hn settled without
  have hgrid : staged.OnGrid p :=
    stagedOnGrid_after p confirmed calls staged (staged?_eq_of_dirty hdirty)
  have hgate := requireSettled_of_onGrid hgrid hn
  have hsettled : staged.weightless p = [] ↔ settled := Tier.weightless_eq_nil_iff
  by_cases h : staged.weightless p = []
  · rw [if_pos h] at hgate
    have hstep := step_beginCommit hdirty hgate
    refine ⟨hgrid.map_encode hn, ⟨fun _ => hsettled.1 h, fun _ => ⟨_, _, hstep⟩⟩,
      fun hno => absurd (hsettled.1 h) hno, fun plan s' hplan u hu => ?_⟩
    rw [hstep] at hplan
    cases hplan
    exact Tier.weightless_eq_nil_iff_counts.1 h u (CommitPlan.updates_between_sublist.subset hu)
  · rw [if_neg h] at hgate
    have hstep := step_beginCommit_error hdirty hgate
    refine ⟨hgrid.map_encode hn,
      ⟨fun ⟨plan, s', hplan⟩ => ?_, fun hyes => absurd (hsettled.2 hyes) h⟩,
      fun _ => ⟨h, hstep⟩, fun plan s' hplan => ?_⟩
    · rw [hstep] at hplan
      cases hplan
    · rw [hstep] at hplan
      cases hplan

/-- One of three endpoints takes everything, and the others are reported. -/
theorem gate_opens_iff_settled_whole :
    let confirmed : Tier := ⟨"t", [⟨"a", 0.5⟩, ⟨"b", 0.5⟩, ⟨"c", 0.5⟩]⟩
    let s := (new confirmed).after [(default, .edit (.weight "a" 1))]
    ∃ staged, s.stage = .dirty staged ∧
      staged.fixedWeights default = [⟨"a", 10000⟩, ⟨"b", 0⟩, ⟨"c", 0⟩] ∧
      s.step default (.beginCommit true) = (.error (.vacatedEndpoints ["b", "c"]), s) := by
  intro confirmed s
  let staged : Tier := ⟨"t", [⟨"a", 1⟩, ⟨"b", 0⟩, ⟨"c", 0⟩]⟩
  have hdirty : s.stage = .dirty staged := by decide +kernel
  have hfixed : staged.fixedWeights default = [⟨"a", 10000⟩, ⟨"b", 0⟩, ⟨"c", 0⟩] := by
    decide +kernel
  obtain ⟨-, -, hrefused, -⟩ :=
    gate_opens_iff_settled default confirmed staged [.edit (.weight "a" 1)] hdirty (by decide)
  refine ⟨staged, hdirty, hfixed, ?_⟩
  rw [hfixed] at hrefused
  exact (hrefused (by decide)).2

end Session

end TierBudget
