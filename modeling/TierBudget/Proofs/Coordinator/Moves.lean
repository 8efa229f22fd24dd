import TierBudget.Coordinator
import TierBudget.Proofs.Session.Operations
/-!
# What a step can do

Every step of a coordinator is one of the moves of `Coordinator.Move`: it fails and changes nothing,
or it changes the session of the tier it names, the plan that waits for this tier, and the store, in
the way that the move says. `Coordinator.move_step` reads the moves off the operations once; what is
kept along a run is then a case for each move (`Coordinator.after_induction`).
-/

namespace TierBudget

/-! ## Boards -/

namespace Board

variable {b b' : Board} {id : String}

@[simp] theorem session?_setSession (b : Board) (id other : String) (s : Session) :
    (b.setSession id s).session? other = if other = id then some s else b.session? other := by
  simp [session?, setSession]

theorem eq_of_session?_setSession {s now : Session}
    (h : (b.setSession id s).session? id = some now) : s = now := by simpa using h

@[simp] theorem policy_setSession (b : Board) (id : String) (s : Session) :
    (b.setSession id s).policy = b.policy := rfl

/-- No commit of the tier waits for the store. -/
def IsFree (b : Board) (id : String) : Prop := ∀ s, b.session? id = some s → ¬ s.IsSaving

theorem isFree_iff_of_session {s : Session} (hs : b.session? id = some s) :
    b.IsFree id ↔ ¬ s.IsSaving := by simp [IsFree, hs]

theorem insert_of_isSaving {t : Tier} {s : Session} (hs : b.session? t.id = some s)
    (h : s.IsSaving) : b.insert t = .error .commitInFlight := by
  unfold insert
  rw [hs, Option.map_some, show s.state = .saving from h]

theorem insert_of_isFree {t : Tier} (h : b.IsFree t.id) :
    b.insert t = .ok (b.setSession t.id (.new t)) := by
  unfold insert
  split
  · next hs =>
    obtain ⟨s, hs, hstate⟩ := Option.map_eq_some_iff.1 hs
    exact absurd hstate (h s hs)
  · rfl

theorem insert_eq_ok {t : Tier} :
    b.insert t = .ok b' ↔ b.IsFree t.id ∧ b' = b.setSession t.id (.new t) := by
  by_cases h : b.IsFree t.id
  · rw [insert_of_isFree h]
    exact ⟨fun he => ⟨h, (Except.ok.inj he).symm⟩, fun he => he.2 ▸ rfl⟩
  · unfold IsFree at h
    push Not at h
    obtain ⟨s, hs, hsaving⟩ := h
    rw [insert_of_isSaving hs hsaving]
    exact ⟨fun he => (by cases he), fun he => absurd hsaving (he.1 s hs)⟩

theorem modifySession_eq {f : Session → Except TierError Session} {s : Session}
    (hs : b.session? id = some s) :
    b.modifySession id f = do return b.setSession id (← f s) := by simp [modifySession, hs]

theorem modifySession_eq_ok {f : Session → Except TierError Session} :
    b.modifySession id f = .ok b' ↔ ∃ s s', b.session? id = some s ∧ f s = .ok s' ∧
      b' = b.setSession id s' := by
  cases hs : b.session? id with
  | none => simp [modifySession, hs]
  | some s =>
    rw [modifySession_eq hs, Except.bind_eq_ok]
    constructor
    · rintro ⟨s', hf, he⟩
      exact ⟨s, s', rfl, hf, (Except.ok.inj he).symm⟩
    · rintro ⟨_, s', he, hf, rfl⟩
      cases he
      exact ⟨s', hf, rfl⟩

theorem startCommit_eq_ok {plan : CommitPlan} :
    b.startCommit id = .ok (plan, b') ↔ ∃ s t, b.session? id = some s ∧ s.stage = .dirty t ∧
      Session.requireSettled b.policy b.requireSettled t = .ok () ∧
      plan = .between b.policy s.confirmed t ∧
      b' = b.setSession id { s with stage := .saving t } := by
  cases hs : b.session? id with
  | none => simp [startCommit, hs]
  | some s =>
    have hstart : b.startCommit id = do
        let begun ← s.beginCommit b.policy b.requireSettled
        return (begun.1, b.setSession id begun.2) := by rw [startCommit, hs]
    rw [hstart, Except.bind_eq_ok]
    constructor
    · rintro ⟨⟨plan', s'⟩, hbegin, he⟩
      obtain ⟨t, hdirty, hset, rfl, rfl⟩ := Session.beginCommit_eq_ok.1 hbegin
      cases he
      exact ⟨s, t, rfl, hdirty, hset, rfl, rfl⟩
    · rintro ⟨_, t, he, hdirty, hset, rfl, rfl⟩
      cases he
      exact ⟨(_, _), Session.beginCommit_eq_ok.2 ⟨t, hdirty, hset, rfl, rfl⟩, rfl⟩

end Board

/-! ## Moves -/

namespace Coordinator

/-- What a step can do: the step, what it answers, and the state after it. -/
inductive Move (c : Coordinator) : Step → Except TierError Answer → Coordinator → Prop where
  /-- An operation is refused. -/
  | fail (s : Step) (e : TierError) (h : ∀ id v, s ≠ .finishCommit id v) : Move c s (.error e) c
  | insert (t : Tier) (h : c.board.IsFree t.id) :
    Move c (.insert t) (.ok .done) { c with board := c.board.setSession t.id (.new t) }
  | load (id : String) {stored : List (RawEntry String)} (hl : c.store.load id = .ok stored)
    (h : c.board.IsFree id) :
    Move c (.load id) (.ok (.tier (.ofStored c.board.policy id stored)))
      { c with board := c.board.setSession id (.new (.ofStored c.board.policy id stored)) }
  | edit (id : String) {e : Session.Edit} {s : Session} {t : Tier}
    (hs : c.board.session? id = some s) (h : ¬ s.IsSaving)
    (ht : e.apply c.board.policy s.current = .ok t) :
    Move c (.edit id e) (.ok (.tier t))
      { c with board := c.board.setSession id { s with stage := .dirty t } }
  | discard (id : String) {s : Session} (hs : c.board.session? id = some s) (h : ¬ s.IsSaving) :
    Move c (.discard id) (.ok .done)
      { c with board := c.board.setSession id { s with stage := .clean } }
  | start (id : String) {s : Session} {t : Tier} (hs : c.board.session? id = some s)
    (h : s.stage = .dirty t)
    (hset : Session.requireSettled c.board.policy c.board.requireSettled t = .ok ()) :
    Move c (.startCommit id) (.ok .waiting)
      { c with
        board := c.board.setSession id { s with stage := .saving t }
        inFlight := c.inFlight.insert id (.between c.board.policy s.confirmed t) }
  /-- There is no commit to answer. -/
  | idle (id : String) (v : Verdict) (h : c.inFlight.get? id = none) :
    Move c (.finishCommit id v) (.ok .idle) c
  | accept (id : String) {plan : CommitPlan} {s : Session} {t : Tier}
    (hp : c.inFlight.get? id = some plan) (hs : c.board.session? id = some s)
    (h : s.stage = .saving t) :
    Move c (.finishCommit id .accepted) (.ok (.plan plan))
      { board := c.board.setSession id ⟨t, .clean⟩
        store := c.store.put plan
        inFlight := c.inFlight.erase id }
  | refuse (id : String) {plan : CommitPlan} {e : StoreError} {s : Session} {t : Tier}
    (hp : c.inFlight.get? id = some plan) (hs : c.board.session? id = some s)
    (h : s.stage = .saving t) :
    Move c (.finishCommit id (.refused e)) (.error (.store e))
      { c with
        board := c.board.setSession id { s with stage := .clean }
        inFlight := c.inFlight.erase id }
  /-- A plan waits, but its session does not. -/
  | stray (id : String) (v : Verdict) {plan : CommitPlan} (e : TierError) (store : Store)
    (hp : c.inFlight.get? id = some plan) (h : c.board.IsFree id) :
    Move c (.finishCommit id v) (.error e) { c with store, inFlight := c.inFlight.erase id }
  | seed (id : String) (entries : List (RawEntry String)) :
    Move c (.seed id entries) (.ok .done) { c with store := c.store.seed id entries }
  | put (plan : CommitPlan) : Move c (.put plan) (.ok .done) { c with store := c.store.put plan }
  | replaceStore (store : Store) : Move c (.replaceStore store) (.ok .done) { c with store }

variable {c : Coordinator}

/-- A settled outcome is a move if it is one when it has a value. -/
theorem move_settle {s : Step} (hs : ∀ id v, s ≠ .finishCommit id v)
    {r : Except TierError (Answer × Coordinator)}
    (h : ∀ a next, r = .ok (a, next) → Move c s (.ok a) next) :
    Move c s (c.settle r).1 (c.settle r).2 := by
  cases r with
  | error e => exact .fail s e hs
  | ok x => exact h x.1 x.2 rfl

theorem move_onBoard {s : Step} (hs : ∀ id v, s ≠ .finishCommit id v) {r : Except TierError Board}
    (h : ∀ b, r = .ok b → Move c s (.ok .done) { c with board := b }) :
    Move c s (c.settle (c.onBoard r)).1 (c.settle (c.onBoard r)).2 := by
  refine move_settle hs fun a next hr => ?_
  obtain ⟨b, hb, he⟩ := Except.bind_eq_ok.1 hr
  cases he
  exact h b hb

/-- The answer of the store to a waiting plan. -/
theorem move_finish {id : String} {plan : CommitPlan} (hp : c.inFlight.get? id = some plan)
    (v : Verdict) :
    Move c (.finishCommit id v) (c.finish id plan v).1 (c.finish id plan v).2 := by
  by_cases hfree : c.board.IsFree id
  · cases v with
    | accepted =>
      cases hfinish : c.board.finishCommit id .accepted with
      | error e =>
        simp only [finish, hfinish]
        exact .stray id .accepted e _ hp hfree
      | ok b =>
        obtain ⟨s, s', hs, hf, -⟩ := Board.modifySession_eq_ok.1 hfinish
        rw [Session.completeCommit_of_not_isSaving (hfree s hs)] at hf
        cases hf
    | refused err =>
      cases hfinish : c.board.finishCommit id (.refused err) with
      | error e =>
        simp only [finish, hfinish]
        exact .stray id (.refused err) (.store err) _ hp hfree
      | ok b =>
        obtain ⟨s, s', hs, hf, -⟩ := Board.modifySession_eq_ok.1 hfinish
        rw [Session.failCommit_of_not_isSaving (hfree s hs)] at hf
        cases hf
  · unfold Board.IsFree at hfree
    push Not at hfree
    obtain ⟨s, hs, hsaving⟩ := hfree
    obtain ⟨t, ht⟩ := Session.isSaving_iff.1 hsaving
    cases v with
    | accepted =>
      have hfinish : c.board.finishCommit id .accepted = .ok (c.board.setSession id ⟨t, .clean⟩) :=
        Board.modifySession_eq_ok.2 ⟨s, _, hs, Session.completeCommit_of_saving ht, rfl⟩
      simp only [finish, hfinish]
      exact .accept id hp hs ht
    | refused err =>
      have hfinish : c.board.finishCommit id (.refused err) =
          .ok (c.board.setSession id { s with stage := .clean }) :=
        Board.modifySession_eq_ok.2 ⟨s, _, hs, Session.failCommit_of_saving ht, rfl⟩
      simp only [finish, hfinish]
      exact .refuse id hp hs ht

theorem move_insert (t : Tier) :
    Move c (.insert t) (c.step (.insert t)).1 (c.step (.insert t)).2 := by
  refine move_onBoard (by simp) fun b hb => ?_
  obtain ⟨hfree, rfl⟩ := Board.insert_eq_ok.1 hb
  exact .insert t hfree

theorem move_load (id : String) :
    Move c (.load id) (c.step (.load id)).1 (c.step (.load id)).2 := by
  refine move_settle (by simp) fun a next hr => ?_
  obtain ⟨⟨t, b⟩, hload, he⟩ := Except.bind_eq_ok.1 hr
  cases he
  obtain ⟨stored, hstored, hins⟩ := Except.bind_eq_ok.1 hload
  obtain ⟨b', hb, he⟩ := Except.bind_eq_ok.1 hins
  cases he
  have hl : c.store.load id = .ok stored := by
    cases hc : c.store.load id with
    | error e =>
      rw [hc] at hstored
      cases hstored
    | ok st =>
      rw [hc] at hstored
      cases hstored
      rfl
  obtain ⟨hfree, rfl⟩ := Board.insert_eq_ok.1 hb
  rw [Tier.id_ofStored] at hfree ⊢
  exact .load id hl hfree

theorem move_edit (id : String) (e : Session.Edit) :
    Move c (.edit id e) (c.step (.edit id e)).1 (c.step (.edit id e)).2 := by
  refine move_settle (by simp) fun a next hr => ?_
  obtain ⟨b, hb, he⟩ := Except.bind_eq_ok.1 hr
  obtain ⟨s, s', hs, hedit, rfl⟩ := Board.modifySession_eq_ok.1 hb
  have hfree : ¬ s.IsSaving := fun h => by
    rw [Session.edit_of_isSaving h] at hedit
    cases hedit
  obtain ⟨t, ht, rfl⟩ := (Session.edit_eq_ok hfree).1 hedit
  simp only [Board.session?_setSession, if_true] at he
  cases he
  exact .edit id hs hfree ht

theorem move_discard (id : String) :
    Move c (.discard id) (c.step (.discard id)).1 (c.step (.discard id)).2 := by
  refine move_onBoard (by simp) fun b hb => ?_
  obtain ⟨s, s', hs, hdiscard, rfl⟩ := Board.modifySession_eq_ok.1 hb
  have hfree : ¬ s.IsSaving := fun h => by
    rw [Session.discard_of_isSaving h] at hdiscard
    cases hdiscard
  rw [Session.discard_of_not_isSaving hfree] at hdiscard
  cases hdiscard
  exact .discard id hs hfree

theorem move_startCommit (id : String) :
    Move c (.startCommit id) (c.step (.startCommit id)).1 (c.step (.startCommit id)).2 := by
  refine move_settle (by simp) fun a next hr => ?_
  obtain ⟨⟨plan, next'⟩, hstart, he⟩ := Except.bind_eq_ok.1 hr
  cases he
  obtain ⟨⟨plan', b⟩, hb, he⟩ := Except.bind_eq_ok.1 hstart
  cases he
  obtain ⟨s, t, hs, hdirty, hset, rfl, rfl⟩ := Board.startCommit_eq_ok.1 hb
  exact .start id hs hdirty hset

/-- **Every step is a move.** -/
theorem move_step (c : Coordinator) (s : Step) : Move c s (c.step s).1 (c.step s).2 := by
  cases s with
  | insert t => exact move_insert t
  | load id => exact move_load id
  | edit id e => exact move_edit id e
  | discard id => exact move_discard id
  | startCommit id => exact move_startCommit id
  | finishCommit id v =>
    cases hp : c.inFlight.get? id with
    | none =>
      simp only [step, hp]
      exact .idle id v hp
    | some plan =>
      simp only [step, hp]
      exact move_finish hp v
  | seed id entries => exact .seed id entries
  | put plan => exact .put plan
  | replaceStore store => exact .replaceStore store

/-! ## Steps that succeed -/

variable {id : String}

/-- Any tier can be tracked on a board whose session of it is not saving. -/
theorem step_insert {t : Tier} (hfree : c.board.IsFree t.id) :
    c.step (.insert t) = (.ok .done, { c with board := c.board.setSession t.id (.new t) }) := by
  rw [step, Board.insert_of_isFree hfree]
  rfl

theorem step_edit {s : Session} {t : Tier} {e : Session.Edit} (hs : c.board.session? id = some s)
    (h : ¬ s.IsSaving) (ht : e.apply c.board.policy s.current = .ok t) :
    c.step (.edit id e) = (.ok (.tier t),
      { c with board := c.board.setSession id { s with stage := .dirty t } }) := by
  have hedit : c.board.edit id e = .ok (c.board.setSession id { s with stage := .dirty t }) :=
    Board.modifySession_eq_ok.2 ⟨s, _, hs, (Session.edit_eq_ok h).2 ⟨t, ht, rfl⟩, rfl⟩
  rw [step, onTier, hedit]
  simp [settle, Session.current, Session.staged?, bind, Except.bind, pure, Except.pure]

theorem step_startCommit {s : Session} {t : Tier} (hs : c.board.session? id = some s)
    (hdirty : s.stage = .dirty t)
    (hset : Session.requireSettled c.board.policy c.board.requireSettled t = .ok ()) :
    c.step (.startCommit id) = (.ok .waiting,
      { c with
        board := c.board.setSession id { s with stage := .saving t }
        inFlight := c.inFlight.insert id (.between c.board.policy s.confirmed t) }) := by
  have hstart := Board.startCommit_eq_ok.2 ⟨s, t, hs, hdirty, hset, rfl, rfl⟩
  rw [step, start, hstart]
  rfl

/-! ## Frames -/

/-- The tier whose session a step works on. -/
def Step.tierId? : Step → Option String
  | .insert t => some t.id
  | .load id | .edit id _ | .discard id | .startCommit id | .finishCommit id _ => some id
  | .seed .. | .put _ | .replaceStore _ => none

/-- **A step leaves the other tiers alone**: their sessions and the plans that wait for them. -/
theorem Move.frame {s : Step} {r : Except TierError Answer} {c' : Coordinator} (h : Move c s r c')
    {id : String} (hid : s.tierId? ≠ some id) :
    c'.board.session? id = c.board.session? id ∧ c'.inFlight.get? id = c.inFlight.get? id := by
  cases h <;> simp_all [Step.tierId?, eq_comm]

@[simp] theorem Move.policy_eq {s : Step} {r : Except TierError Answer} {c' : Coordinator}
    (h : Move c s r c') : c'.board.policy = c.board.policy := by cases h <;> rfl

/-! ## Runs -/

/-- The state after some steps. -/
def after (c : Coordinator) (steps : List Step) : Coordinator :=
  steps.foldl (fun c s => (c.step s).2) c

/-- The steps of a run with what they answer. -/
def trace (c : Coordinator) : List Step → List (Step × Except TierError Answer)
  | [] => []
  | s :: steps => (s, (c.step s).1) :: trace (c.step s).2 steps

@[simp] theorem after_nil (c : Coordinator) : c.after [] = c := rfl

@[simp] theorem after_cons (c : Coordinator) (s : Step) (steps : List Step) :
    c.after (s :: steps) = (c.step s).2.after steps := rfl

/-- **What every move keeps is kept along a run.** -/
theorem after_induction {P : Coordinator → Prop} {steps : List Step} (hc : P c)
    (h : ∀ s ∈ steps, ∀ c r c', P c → Move c s r c' → P c') : P (c.after steps) := by
  induction steps generalizing c with
  | nil => exact hc
  | cons s steps ih =>
    exact ih (h s List.mem_cons_self c _ _ hc (move_step c s)) fun s' hs' =>
      h s' (List.mem_cons_of_mem _ hs')

@[simp] theorem policy_after (c : Coordinator) (steps : List Step) :
    (c.after steps).board.policy = c.board.policy :=
  after_induction (P := fun d => d.board.policy = c.board.policy) rfl
    fun _ _ _ _ _ hd h => h.policy_eq.trans hd

end Coordinator

end TierBudget
