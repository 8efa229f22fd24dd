import TierBudget.Proofs.Coordinator.Moves
/-!
# Commits are isolated

Between the start of a commit and the answer of the store any caller may take any step. Nothing
reaches the tier in that time: its session stays as the commit left it and every operation on it is
refused (`IsWaiting.after`, `IsWaiting.refused`), until the answer makes the staged tier the
confirmed one or drops it.

The invariant is `Consistent`: the plans in flight are those of the sessions that are saving. From
it follows that the commits started and the commits answered differ by at most one for every tier
(`countP_started`).
-/

namespace TierBudget

/-- The plan that a session waits with. -/
def Session.openPlan? (p : Policy) (s : Session) : Option CommitPlan :=
  match s.stage with
  | .saving t => some (.between p s.confirmed t)
  | _ => none

theorem Session.openPlan?_of_not_isSaving {p : Policy} {s : Session} (h : ¬ s.IsSaving) :
    s.openPlan? p = none := by
  unfold openPlan?
  split
  · next t ht => exact absurd (isSaving_iff.2 ⟨t, ht⟩) h
  · rfl

namespace Coordinator

variable {c c' : Coordinator} {s : Step} {r : Except TierError Answer}

/-! ## Consistency -/

/-- The plans in flight are those of the sessions that are saving. -/
def Consistent (c : Coordinator) : Prop :=
  ∀ id, c.inFlight.get? id = (c.board.session? id).bind (·.openPlan? c.board.policy)

/-- A coordinator with a new board. -/
def fresh (p : Policy) (requireSettled : Bool) (store : Store) : Coordinator :=
  ⟨.new p requireSettled, store, .empty⟩

theorem consistent_fresh (p : Policy) (requireSettled : Bool) (store : Store) :
    (fresh p requireSettled store).Consistent := fun _ => rfl

theorem Consistent.get?_of_isFree (hc : c.Consistent) {id : String} (h : c.board.IsFree id) :
    c.inFlight.get? id = none := by
  rw [hc id]
  cases hs : c.board.session? id with
  | none => rfl
  | some s => exact Session.openPlan?_of_not_isSaving (h s hs)

/-- A plan in flight has a session that waits for its answer. -/
theorem Consistent.not_isFree (hc : c.Consistent) {id : String} {plan : CommitPlan}
    (hp : c.inFlight.get? id = some plan) : ¬ c.board.IsFree id := fun hfree => by
  rw [hc.get?_of_isFree hfree] at hp
  cases hp

theorem Consistent.get?_of_session (hc : c.Consistent) {id : String} {s : Session}
    (hs : c.board.session? id = some s) :
    c.inFlight.get? id = s.openPlan? c.board.policy := by rw [hc id, hs, Option.bind_some]

/-- **Every move keeps the plans in flight and the saving sessions in agreement.** -/
theorem Move.consistent (h : Move c s r c') (hc : c.Consistent) : c'.Consistent := by
  intro id
  by_cases hid : s.tierId? = some id
  · cases h with
    | fail => exact hc id
    | insert _ hfree =>
      cases hid
      simpa [Session.new, Session.openPlan?] using hc.get?_of_isFree hfree
    | load _ hl hfree =>
      cases hid
      simpa [Session.new, Session.openPlan?] using hc.get?_of_isFree hfree
    | edit _ hs hfree ht =>
      cases hid
      have hnone := (hc.get?_of_session hs).trans (Session.openPlan?_of_not_isSaving hfree)
      simpa [Session.openPlan?] using hnone
    | discard _ hs hfree =>
      cases hid
      have hnone := (hc.get?_of_session hs).trans (Session.openPlan?_of_not_isSaving hfree)
      simpa [Session.openPlan?] using hnone
    | start _ hs hdirty hset =>
      cases hid
      simp [Session.openPlan?]
    | idle => exact hc id
    | accept _ hp hs ht =>
      cases hid
      simp [Session.openPlan?]
    | refuse _ hp hs ht =>
      cases hid
      simp [Session.openPlan?]
    | stray _ _ _ _ hp hfree => exact absurd hfree (hc.not_isFree hp)
    | seed => cases hid
    | put => cases hid
    | replaceStore => cases hid
  · obtain ⟨hsession, hplan⟩ := h.frame hid
    rw [hsession, hplan, h.policy_eq]
    exact hc id

theorem Consistent.after (hc : c.Consistent) (steps : List Step) : (c.after steps).Consistent :=
  after_induction hc fun _ _ _ _ _ hc h => h.consistent hc

/-! ## Commits in flight -/

/-- The step began a commit of the tier. -/
def started (id : String) : Step × Except TierError Answer → Bool
  | (.startCommit id', .ok .waiting) => id' == id
  | _ => false

theorem step_of_started {id : String}
    (h : started id (.startCommit id, (c.step (.startCommit id)).1) = true) :
    ∃ d, c.step (.startCommit id) = (.ok .waiting, d) := by
  unfold started at h
  split at h
  · next heq => exact ⟨_, Prod.ext (Prod.mk.inj heq).2 rfl⟩
  · cases h

/-- The step answered a commit of the tier. -/
def answered (id : String) : Step × Except TierError Answer → Bool
  | (.finishCommit _ _, .ok .idle) => false
  | (.finishCommit id' _, _) => id' == id
  | _ => false

/-- Whether a plan of the tier waits for the store. -/
def openCommits (c : Coordinator) (id : String) : ℕ := if (c.inFlight.get? id).isSome then 1 else 0

theorem openCommits_le_one (c : Coordinator) (id : String) : c.openCommits id ≤ 1 := by
  unfold openCommits
  split <;> omega

/-- **One step**: a start adds a commit where there was none, an answer takes the one away. -/
theorem Move.openCommits_eq (h : Move c s r c') (hc : c.Consistent) (id : String) :
    c.openCommits id + (if started id (s, r) then 1 else 0) =
      c'.openCommits id + if answered id (s, r) then 1 else 0 := by
  by_cases hid : s.tierId? = some id
  · cases h with
    | fail s e hne =>
      have : answered id (s, .error e) = false := by
        cases s <;> first | rfl | exact absurd rfl (hne _ _)
      have : started id (s, .error e) = false := by cases s <;> rfl
      simp [*]
    | insert | load | edit | discard => rfl
    | start _ hs hdirty hset =>
      cases hid
      have hnone : c.inFlight.get? id = none := by
        rw [hc.get?_of_session hs]
        simp [Session.openPlan?, hdirty]
      simp [openCommits, started, answered, hnone]
    | idle => rfl
    | accept _ hp hs ht =>
      cases hid
      simp [openCommits, started, answered, hp]
    | refuse _ hp hs ht =>
      cases hid
      simp [openCommits, started, answered, hp]
    | stray _ _ _ _ hp hfree => exact absurd hfree (hc.not_isFree hp)
    | seed => cases hid
    | put => cases hid
    | replaceStore => cases hid
  · have hopen : c'.openCommits id = c.openCommits id := by
      rw [openCommits, (h.frame hid).2, openCommits]
    have hstart : started id (s, r) = false := by
      unfold started
      split <;> simp_all [Step.tierId?]
    have hanswer : answered id (s, r) = false := by
      unfold answered
      split <;> simp_all [Step.tierId?]
    rw [hopen, hstart, hanswer]

/-- **A run**: the commits of a tier that were started are those answered and the one that waits. -/
theorem countP_started (hc : c.Consistent) (id : String) (steps : List Step) :
    c.openCommits id + (c.trace steps).countP (started id) =
      (c.after steps).openCommits id + (c.trace steps).countP (answered id) := by
  induction steps generalizing c with
  | nil => rfl
  | cons s steps ih =>
    have hmove := move_step c s
    have hone := hmove.openCommits_eq hc id
    have hrest := ih (hmove.consistent hc)
    rw [trace, List.countP_cons, List.countP_cons, after_cons]
    omega

/-! ## While a commit waits -/

/-- The tier has a commit in flight from one tier to the other. -/
structure IsWaiting (c : Coordinator) (id : String) (confirmed staged : Tier) : Prop where
  session : c.board.session? id = some ⟨confirmed, .saving staged⟩
  plan : c.inFlight.get? id = some (.between c.board.policy confirmed staged)

/-- Every operation on the tier is refused and changes nothing. -/
structure Refuses (c : Coordinator) (id : String) : Prop where
  insert : ∀ t : Tier, t.id = id → c.step (.insert t) = (.error .commitInFlight, c)
  load : ∀ stored, c.store.load id = .ok stored → c.step (.load id) = (.error .commitInFlight, c)
  edit : ∀ e, c.step (.edit id e) = (.error .commitInFlight, c)
  discard : c.step (.discard id) = (.error .commitInFlight, c)
  startCommit : c.step (.startCommit id) = (.error .commitInFlight, c)

namespace IsWaiting

variable {id : String} {confirmed staged : Tier}

theorem isSaving (confirmed staged : Tier) : Session.IsSaving ⟨confirmed, .saving staged⟩ := rfl

theorem not_isFree (h : c.IsWaiting id confirmed staged) : ¬ c.board.IsFree id := fun hfree =>
  hfree _ h.session (isSaving confirmed staged)

/-- Only the answer of the store moves a tier that waits. -/
theorem move (h : c.IsWaiting id confirmed staged) (hm : Move c s r c')
    (hs : ∀ v, s ≠ .finishCommit id v) : c'.IsWaiting id confirmed staged := by
  by_cases hid : s.tierId? = some id
  · have hsaved : ∀ s' : Session, c.board.session? id = some s' → s'.IsSaving := fun s' hs' => by
      rw [h.session] at hs'
      cases hs'
      rfl
    cases hm with
    | fail => exact h
    | insert _ hfree =>
      cases hid
      exact absurd hfree h.not_isFree
    | load _ hl hfree =>
      cases hid
      exact absurd hfree h.not_isFree
    | edit _ hs' hfree ht =>
      cases hid
      exact absurd (hsaved _ hs') hfree
    | discard _ hs' hfree =>
      cases hid
      exact absurd (hsaved _ hs') hfree
    | start _ hs' hdirty hset =>
      cases hid
      rw [h.session] at hs'
      cases hs'
      cases hdirty
    | idle => exact h
    | accept | refuse | stray =>
      cases hid
      exact absurd rfl (hs _)
    | seed => cases hid
    | put => cases hid
    | replaceStore => cases hid
  · obtain ⟨hsession, hplan⟩ := hm.frame hid
    exact ⟨hsession.trans h.session, by rw [hplan, h.plan, hm.policy_eq]⟩

/-- **A waiting tier waits**, whatever steps are taken that do not answer it. -/
theorem after (h : c.IsWaiting id confirmed staged) {steps : List Step}
    (hs : ∀ v, .finishCommit id v ∉ steps) : (c.after steps).IsWaiting id confirmed staged :=
  after_induction (P := fun c => c.IsWaiting id confirmed staged) h
    fun _ hmem _ _ _ h hm => h.move hm fun v he => hs v (he ▸ hmem)

theorem refused (h : c.IsWaiting id confirmed staged) : c.Refuses id := by
  have hsaving := isSaving confirmed staged
  refine ⟨fun t ht => ?_, fun stored hl => ?_, fun e => ?_, ?_, ?_⟩
  · subst ht
    have hrefuse := Board.insert_of_isSaving h.session hsaving
    simp [step, onBoard, hrefuse, settle, bind, Except.bind]
  · have hrefuse := Board.insert_of_isSaving (t := .ofStored c.board.policy id stored)
      (by rw [Tier.id_ofStored]; exact h.session) hsaving
    simp [step, Board.load, Board.insertStored, hl, hrefuse, settle, bind, Except.bind,
      Except.mapError]
  · have hrefuse : c.board.edit id e = .error .commitInFlight := by
      rw [Board.edit, Board.modifySession_eq h.session, Session.edit_of_isSaving hsaving]
      rfl
    simp [step, onTier, hrefuse, settle, bind, Except.bind]
  · have hrefuse : c.board.discard id = .error .commitInFlight := by
      rw [Board.discard, Board.modifySession_eq h.session, Session.discard_of_isSaving hsaving]
      rfl
    simp [step, onBoard, hrefuse, settle, bind, Except.bind]
  · have hrefuse : c.board.startCommit id = .error .commitInFlight := by
      simp [Board.startCommit, h.session, Session.beginCommit_of_isSaving hsaving, bind,
        Except.bind]
    simp [step, start, hrefuse, settle, bind, Except.bind]

/-- The store accepts: the staged tier is the confirmed one. -/
theorem accepted (h : c.IsWaiting id confirmed staged) :
    ∃ c', c.step (.finishCommit id .accepted) =
        (.ok (.plan (.between c.board.policy confirmed staged)), c') ∧
      c'.board.session? id = some ⟨staged, .clean⟩ := by
  have hm := move_step c (.finishCommit id .accepted)
  generalize hstep : c.step (.finishCommit id .accepted) = x at hm
  obtain ⟨a, c'⟩ := x
  refine ⟨c', ?_⟩
  cases hm with
  | fail _ e hne => exact absurd rfl (hne _ _)
  | idle _ _ hp =>
    rw [h.plan] at hp
    cases hp
  | accept _ hp hs ht =>
    rw [h.plan] at hp
    rw [h.session] at hs
    cases hp
    cases hs
    cases ht
    exact ⟨rfl, by simp⟩
  | stray _ _ e store hp hfree => exact absurd hfree h.not_isFree

/-- The store refuses: the staged tier is dropped, and its error is reported. -/
theorem rejected (h : c.IsWaiting id confirmed staged) (e : StoreError) :
    ∃ c', c.step (.finishCommit id (.refused e)) = (.error (.store e), c') ∧
      c'.board.session? id = some ⟨confirmed, .clean⟩ := by
  have hm := move_step c (.finishCommit id (.refused e))
  generalize hstep : c.step (.finishCommit id (.refused e)) = x at hm
  obtain ⟨a, c'⟩ := x
  refine ⟨c', ?_⟩
  cases hm with
  | fail _ e hne => exact absurd rfl (hne _ _)
  | idle _ _ hp =>
    rw [h.plan] at hp
    cases hp
  | refuse _ hp hs ht =>
    rw [h.session] at hs
    cases hs
    exact ⟨rfl, by simp⟩
  | stray _ _ e store hp hfree => exact absurd hfree h.not_isFree

end IsWaiting

/-- A commit that starts waits from then on. -/
theorem Move.isWaiting {id : String} (h : Move c (.startCommit id) (.ok .waiting) c') :
    ∃ confirmed staged, c.board.session? id = some ⟨confirmed, .dirty staged⟩ ∧
      c'.IsWaiting id confirmed staged := by
  cases h with
  | start _ hs hdirty hset =>
    rename_i s t
    obtain ⟨confirmed, stage⟩ := s
    cases hdirty
    exact ⟨confirmed, t, hs, by simp, by simp⟩

/-- An edit of a tier without edits, committed at once, waits for the store. -/
theorem isWaiting_after_edit {id : String} {confirmed staged : Tier} {e : Session.Edit}
    (hs : c.board.session? id = some ⟨confirmed, .clean⟩)
    (he : e.apply c.board.policy confirmed = .ok staged)
    (hset : Session.requireSettled c.board.policy c.board.requireSettled staged = .ok ()) :
    (c.after [.edit id e, .startCommit id]).IsWaiting id confirmed staged ∧
      (c.after [.edit id e, .startCommit id]).store = c.store := by
  have hedit := step_edit hs (Session.not_isSaving_clean confirmed) he
  have hdirty : (c.step (.edit id e)).2.board.session? id = some ⟨confirmed, .dirty staged⟩ := by
    simp [hedit]
  have hset : Session.requireSettled (c.step (.edit id e)).2.board.policy
      (c.step (.edit id e)).2.board.requireSettled staged = .ok () := by
    rw [hedit]
    exact hset
  have hstart := step_startCommit hdirty rfl hset
  rw [after_cons, after_cons, after_nil, hstart]
  exact ⟨⟨by simp, by simp⟩, by rw [hedit]⟩

/-- **Commits are isolated.** In every run of a board, with any steps of any callers on any tiers in
any order, a tier has at most one commit in flight; and while it has one, nothing but the answer of
the store changes its session. -/
theorem commits_are_isolated (p : Policy) (requireSettled : Bool) (store : Store)
    (steps : List Step) (id : String) :
    let c := (fresh p requireSettled store).after steps
    let run := (fresh p requireSettled store).trace steps
    run.countP (answered id) ≤ run.countP (started id) ∧
    run.countP (started id) ≤ run.countP (answered id) + 1 ∧
    ∀ c', c.step (.startCommit id) = (.ok .waiting, c') →
      ∃ confirmed staged, c.board.session? id = some ⟨confirmed, .dirty staged⟩ ∧
        ∀ more : List Step, (∀ v, .finishCommit id v ∉ more) →
          let d := c'.after more
          d.board.session? id = some ⟨confirmed, .saving staged⟩ ∧
          d.Refuses id ∧
          (∃ d', d.step (.finishCommit id .accepted) =
              (.ok (.plan (.between p confirmed staged)), d') ∧
            d'.board.session? id = some ⟨staged, .clean⟩) ∧
          ∀ e, ∃ d', d.step (.finishCommit id (.refused e)) = (.error (.store e), d') ∧
            d'.board.session? id = some ⟨confirmed, .clean⟩ := by
  intro c run
  have hfresh := consistent_fresh p requireSettled store
  have hcount := countP_started hfresh id steps
  have hzero : (fresh p requireSettled store).openCommits id = 0 := rfl
  have hle := openCommits_le_one ((fresh p requireSettled store).after steps) id
  rw [hzero, Nat.zero_add] at hcount
  refine ⟨?_, ?_, fun c' hstep => ?_⟩
  · change List.countP _ (Coordinator.trace _ steps) ≤ List.countP _ (Coordinator.trace _ steps)
    omega
  · change List.countP _ (Coordinator.trace _ steps) ≤ List.countP _ (Coordinator.trace _ steps) + 1
    omega
  have hmove := move_step c (.startCommit id)
  rw [hstep] at hmove
  obtain ⟨confirmed, staged, hs, hwait⟩ := hmove.isWaiting
  refine ⟨confirmed, staged, hs, fun more hmore => ?_⟩
  have hd := hwait.after hmore
  have hp : (c'.after more).board.policy = p := by
    rw [policy_after, hmove.policy_eq, policy_after]
    rfl
  have haccept := hd.accepted
  rw [hp] at haccept
  exact ⟨hd.session, hd.refused, haccept, hd.rejected⟩

/-- While an endpoint is committed, an edit, a discard and a second commit come and are refused. -/
theorem commits_are_isolated_attach :
    let c := (fresh default false default).after [.insert ⟨"t", []⟩, .edit "t" (.attach "a")]
    let d := (c.step (.startCommit "t")).2.after
      [.edit "t" (.attach "b"), .discard "t", .startCommit "t"]
    (c.step (.startCommit "t")).1 = .ok .waiting ∧ ∃ confirmed staged,
      d.board.session? "t" = some ⟨confirmed, .saving staged⟩ ∧ d.Refuses "t" := by
  intro c d
  have hstarted : started "t" (.startCommit "t", (c.step (.startCommit "t")).1) = true := by
    decide +kernel
  have hwaiting : (c.step (.startCommit "t")).1 = .ok .waiting := by
    unfold started at hstarted
    split at hstarted
    · next heq => exact (Prod.mk.inj heq).2
    · cases hstarted
  obtain ⟨-, -, hisolated⟩ := commits_are_isolated default false default
    [.insert ⟨"t", []⟩, .edit "t" (.attach "a")] "t"
  obtain ⟨confirmed, staged, -, hrun⟩ := hisolated _ (Prod.ext hwaiting rfl)
  obtain ⟨hsession, hrefuses, -⟩ := hrun
    [.edit "t" (.attach "b"), .discard "t", .startCommit "t"] (by simp)
  exact ⟨hwaiting, confirmed, staged, hsession, hrefuses⟩

end Coordinator

end TierBudget
