import TierBudget.Proofs.Coordinator.Sync
/-!
# Tiers are independent

Every step but the exchange of the whole store names one tier (`Step.named?`). What it answers and
what it leaves of that tier depends on nothing but the tier's own session, plan and entries
(`AgreeOn.step`), and of the other tiers it changes nothing (`agreeOn_step`). So two steps that name
different tiers commute (`step_comm`), and what a run does to a tier is what the tier's own steps do
(`AgreeOn.run`).
-/

namespace TierBudget

/-! ## Boards -/

namespace Board

variable {b : Board} {id : String}

/-- What becomes of a session that is replaced by a clean one. -/
def replace (old : Option Session) (t : Tier) : Except TierError Session :=
  match old.map Session.state with
  | some .saving => .error .commitInFlight
  | _ => .ok (.new t)

theorem insert_eq_map (b : Board) {t : Tier} (h : t.id = id) :
    b.insert t = (replace (b.session? id) t).map (b.setSession id) := by
  subst h
  unfold insert replace
  cases (b.session? t.id).map Session.state with
  | none => rfl
  | some state => cases state <;> rfl

theorem insertStored_eq_map (b : Board) (id : String) (stored : List (RawEntry String)) :
    b.insertStored id stored =
      (replace (b.session? id) (.ofStored b.policy id stored)).map
        fun s => (.ofStored b.policy id stored, b.setSession id s) := by
  rw [insertStored, insert_eq_map b (Tier.id_ofStored b.policy id stored)]
  cases replace (b.session? id) (.ofStored b.policy id stored) <;> rfl

/-- The session of a tier that is tracked. -/
def tracked (b : Board) (id : String) : Except TierError Session :=
  match b.session? id with
  | none => .error (.unknownTier id)
  | some s => .ok s

theorem modifySession_eq_map (b : Board) (id : String) (f : Session → Except TierError Session) :
    b.modifySession id f = (b.tracked id >>= f).map (b.setSession id) := by
  unfold modifySession tracked
  cases b.session? id with
  | none => rfl
  | some s =>
    change (f s >>= fun s' => _) = (f s).map _
    cases f s <;> rfl

theorem startCommit_eq_map (b : Board) (id : String) :
    b.startCommit id =
      (b.tracked id >>= fun s => s.beginCommit b.policy b.requireSettled).map
        fun begun => (begun.1, b.setSession id begun.2) := by
  unfold startCommit tracked
  cases b.session? id with
  | none => rfl
  | some s =>
    change (s.beginCommit _ _ >>= fun begun => _) = (s.beginCommit _ _).map _
    cases s.beginCommit b.policy b.requireSettled <;> rfl

end Board

namespace Coordinator

variable {c d e : Coordinator} {s t : Step} {id : String}

/-! ## Agreement on a tier -/

/-- The tier that a step names. -/
def Step.named? : Step → Option String
  | .seed id _ => some id
  | .put plan => some plan.tierId
  | s => s.tierId?

/-- Two coordinators agree on a tier: on its session, the plan that waits for it and its stored
entries, and on what all tiers share. -/
structure AgreeOn (id : String) (c d : Coordinator) : Prop where
  policy : c.board.policy = d.board.policy
  requireSettled : c.board.requireSettled = d.board.requireSettled
  scale : c.store.scale = d.store.scale
  session : c.board.session? id = d.board.session? id
  plan : c.inFlight.get? id = d.inFlight.get? id
  stored : c.store.tiers.get? id = d.store.tiers.get? id

namespace AgreeOn

theorem refl (id : String) (c : Coordinator) : AgreeOn id c c := ⟨rfl, rfl, rfl, rfl, rfl, rfl⟩

theorem symm (h : AgreeOn id c d) : AgreeOn id d c :=
  ⟨h.policy.symm, h.requireSettled.symm, h.scale.symm, h.session.symm, h.plan.symm, h.stored.symm⟩

theorem trans (h : AgreeOn id c d) (h' : AgreeOn id d e) : AgreeOn id c e :=
  ⟨h.policy.trans h'.policy, h.requireSettled.trans h'.requireSettled, h.scale.trans h'.scale,
    h.session.trans h'.session, h.plan.trans h'.plan, h.stored.trans h'.stored⟩

theorem load_eq (h : AgreeOn id c d) : c.store.load id = d.store.load id := by
  rw [Store.load, Store.load, h.stored]

theorem tracked_eq (h : AgreeOn id c d) : c.board.tracked id = d.board.tracked id := by
  rw [Board.tracked, Board.tracked, h.session]

theorem setSession (h : AgreeOn id c d) (s : Session) :
    AgreeOn id { c with board := c.board.setSession id s }
      { d with board := d.board.setSession id s } :=
  ⟨h.policy, h.requireSettled, h.scale, by simp, h.plan, h.stored⟩

theorem insertPlan (h : AgreeOn id c d) (plan : CommitPlan) :
    AgreeOn id { c with inFlight := c.inFlight.insert id plan }
      { d with inFlight := d.inFlight.insert id plan } :=
  ⟨h.policy, h.requireSettled, h.scale, h.session, by simp, h.stored⟩

theorem erasePlan (h : AgreeOn id c d) :
    AgreeOn id { c with inFlight := c.inFlight.erase id }
      { d with inFlight := d.inFlight.erase id } :=
  ⟨h.policy, h.requireSettled, h.scale, h.session, by simp, h.stored⟩

theorem seed (h : AgreeOn id c d) (entries : List (RawEntry String)) :
    AgreeOn id { c with store := c.store.seed id entries }
      { d with store := d.store.seed id entries } :=
  ⟨h.policy, h.requireSettled, h.scale, h.session, h.plan, by simp [Store.seed]⟩

/-- A plan is applied on both sides; if it is one of another tier, the tier stays as it is. -/
theorem put (h : AgreeOn id c d) (plan : CommitPlan) :
    AgreeOn id { c with store := c.store.put plan } { d with store := d.store.put plan } := by
  refine ⟨h.policy, h.requireSettled, h.scale, h.session, h.plan, ?_⟩
  by_cases hid : id = plan.tierId
  · subst hid
    simp [Store.put, Store.seed, h.scale, h.stored]
  · simpa [Store.put, Store.seed, hid] using h.stored

end AgreeOn

/-- Coordinators that agree on every tier are the same. -/
theorem eq_of_agreeOn (h : ∀ id, AgreeOn id c d) : c = d := by
  obtain ⟨⟨p, settled, sessions⟩, ⟨scale, tiers⟩, inFlight⟩ := c
  obtain ⟨⟨p', settled', sessions'⟩, ⟨scale', tiers'⟩, inFlight'⟩ := d
  obtain rfl : p = p' := (h "").policy
  obtain rfl : settled = settled' := (h "").requireSettled
  obtain rfl : scale = scale' := (h "").scale
  obtain rfl : sessions = sessions' := Catalogue.ext_get? fun id => (h id).session
  obtain rfl : tiers = tiers' := Catalogue.ext_get? fun id => (h id).stored
  obtain rfl : inFlight = inFlight' := Catalogue.ext_get? fun id => (h id).plan
  rfl

/-! ## A step depends on its own tier -/

/-- Two outcomes are the same for a tier: one answer, and states that agree on the tier. -/
structure SameFor (id : String) (x y : Except TierError Answer × Coordinator) : Prop where
  answer : x.1 = y.1
  state : AgreeOn id x.2 y.2

theorem AgreeOn.sameFor_onBoard (h : AgreeOn id c d) (r : Except TierError Session) :
    SameFor id (c.settle (c.onBoard (r.map (c.board.setSession id))))
      (d.settle (d.onBoard (r.map (d.board.setSession id)))) := by
  cases r with
  | error e => exact ⟨rfl, h⟩
  | ok s => exact ⟨rfl, h.setSession s⟩

theorem AgreeOn.step_insert {t : Tier} (h : AgreeOn t.id c d) :
    SameFor t.id (c.step (.insert t)) (d.step (.insert t)) := by
  rw [step, step, Board.insert_eq_map c.board rfl, Board.insert_eq_map d.board rfl, h.session]
  exact h.sameFor_onBoard _

theorem AgreeOn.step_load (h : AgreeOn id c d) :
    SameFor id (c.step (.load id)) (d.step (.load id)) := by
  rw [step, step, Board.load, Board.load, h.load_eq]
  cases d.store.load id with
  | error e => exact ⟨rfl, h⟩
  | ok stored =>
    change SameFor id (c.settle (c.board.insertStored id stored >>= _))
      (d.settle (d.board.insertStored id stored >>= _))
    rw [Board.insertStored_eq_map, Board.insertStored_eq_map, h.policy, h.session]
    cases Board.replace (d.board.session? id) (.ofStored d.board.policy id stored) with
    | error e => exact ⟨rfl, h⟩
    | ok s => exact ⟨rfl, h.setSession s⟩

theorem AgreeOn.step_edit (h : AgreeOn id c d) (edit : Session.Edit) :
    SameFor id (c.step (.edit id edit)) (d.step (.edit id edit)) := by
  rw [step, step, Board.edit, Board.edit, Board.modifySession_eq_map, Board.modifySession_eq_map,
    h.tracked_eq, h.policy]
  cases d.board.tracked id >>= fun s => s.edit d.board.policy edit with
  | error e => exact ⟨rfl, h⟩
  | ok s =>
    simp only [onTier, Except.map, bind, Except.bind, Board.session?_setSession, if_true]
    exact ⟨rfl, h.setSession s⟩

theorem AgreeOn.step_discard (h : AgreeOn id c d) :
    SameFor id (c.step (.discard id)) (d.step (.discard id)) := by
  rw [step, step, Board.discard, Board.discard, Board.modifySession_eq_map,
    Board.modifySession_eq_map, h.tracked_eq]
  exact h.sameFor_onBoard _

theorem AgreeOn.step_startCommit (h : AgreeOn id c d) :
    SameFor id (c.step (.startCommit id)) (d.step (.startCommit id)) := by
  rw [step, step, start, start, Board.startCommit_eq_map, Board.startCommit_eq_map, h.tracked_eq,
    h.policy, h.requireSettled]
  cases d.board.tracked id >>= fun s => s.beginCommit d.board.policy d.board.requireSettled with
  | error e => exact ⟨rfl, h⟩
  | ok begun => exact ⟨rfl, (h.setSession begun.2).insertPlan begun.1⟩

theorem AgreeOn.finish (h : AgreeOn id c d) (plan : CommitPlan) (v : Verdict) :
    SameFor id (c.finish id plan v) (d.finish id plan v) := by
  cases v with
  | accepted =>
    have hput := (h.put plan).erasePlan
    simp only [Coordinator.finish, Board.finishCommit, Board.modifySession_eq_map, h.tracked_eq]
    cases d.board.tracked id >>= Session.completeCommit with
    | error e => exact ⟨rfl, hput⟩
    | ok s => exact ⟨rfl, hput.setSession s⟩
  | refused err =>
    simp only [Coordinator.finish, Board.finishCommit, Board.modifySession_eq_map, h.tracked_eq]
    cases d.board.tracked id >>= Session.failCommit with
    | error e => exact ⟨rfl, h.erasePlan⟩
    | ok s => exact ⟨rfl, h.erasePlan.setSession s⟩

/-- **A step depends on its own tier alone**: where two coordinators agree on it, the step has the
same answer and leaves them in agreement. -/
theorem AgreeOn.step (h : AgreeOn id c d) (hs : s.named? = some id) :
    SameFor id (c.step s) (d.step s) := by
  cases s with
  | insert t =>
    cases hs
    exact h.step_insert
  | load =>
    cases hs
    exact h.step_load
  | edit _ edit =>
    cases hs
    exact h.step_edit edit
  | discard =>
    cases hs
    exact h.step_discard
  | startCommit =>
    cases hs
    exact h.step_startCommit
  | finishCommit _ v =>
    cases hs
    simp only [Coordinator.step, h.plan]
    cases d.inFlight.get? id with
    | none => exact ⟨rfl, h⟩
    | some plan => exact h.finish plan v
  | seed _ entries =>
    cases hs
    exact ⟨rfl, h.seed entries⟩
  | put plan =>
    cases hs
    exact ⟨rfl, h.put plan⟩
  | replaceStore => cases hs

/-! ## A step leaves the other tiers alone -/

theorem Step.tierId?_ne (hs : s.named? = some id) {other : String} (hne : other ≠ id) :
    s.tierId? ≠ some other := by
  cases s <;> simp_all [Step.named?, Step.tierId?, eq_comm]

theorem get?_put_of_ne {store : Store} {plan : CommitPlan} {other : String}
    (h : other ≠ plan.tierId) : (store.put plan).tiers.get? other = store.tiers.get? other := by
  simp [Store.put, Store.seed, h]

/-- **A step that names a tier leaves the others as they are.** -/
theorem agreeOn_step (hc : c.Consistent) (hk : c.Keyed) (hs : s.named? = some id) {other : String}
    (hne : other ≠ id) : AgreeOn other (c.step s).2 c := by
  have hmove := move_step c s
  obtain ⟨hsession, hplan⟩ := hmove.frame (Step.tierId?_ne hs hne)
  generalize c.step s = x at *
  obtain ⟨answer, c'⟩ := x
  cases hmove with
  | fail | idle => exact .refl other _
  | insert | load | edit | discard | start | refuse =>
    exact ⟨rfl, rfl, rfl, hsession, hplan, rfl⟩
  | accept _ hp hs' ht =>
    cases hs
    -- the plan could write to another tier only if it bore another id than the tier it waits for
    refine ⟨rfl, rfl, rfl, hsession, hplan, get?_put_of_ne ?_⟩
    rwa [hc.tierId_eq hk hp]
  | stray _ _ _ _ hp hfree => exact absurd hfree (hc.not_isFree hp)
  | seed =>
    cases hs
    exact ⟨rfl, rfl, rfl, hsession, hplan, by simp [Store.seed, hne]⟩
  | put =>
    cases hs
    exact ⟨rfl, rfl, rfl, hsession, hplan, get?_put_of_ne hne⟩
  | replaceStore => cases hs

/-! ## Two steps -/

/-- **Steps that name different tiers commute.** -/
theorem step_comm (hc : c.Consistent) (hk : c.Keyed) {a b : String} (hs : s.named? = some a)
    (ht : t.named? = some b) (hab : a ≠ b) :
    (c.step s).1 = ((c.step t).2.step s).1 ∧ (c.step t).1 = ((c.step s).2.step t).1 ∧
      ((c.step s).2.step t).2 = ((c.step t).2.step s).2 := by
  have hms := move_step c s
  have hmt := move_step c t
  have hcs := hms.consistent hc
  have hks := hms.keyed hk
  have hct := hmt.consistent hc
  have hkt := hmt.keyed hk
  have hfirst := (agreeOn_step hc hk ht hab).symm.step hs
  have hsecond := (agreeOn_step hc hk hs hab.symm).symm.step ht
  refine ⟨hfirst.answer, hsecond.answer, eq_of_agreeOn fun id => ?_⟩
  by_cases ha : id = a
  · subst ha
    exact (agreeOn_step hcs hks ht hab).trans hfirst.state
  · by_cases hb : id = b
    · subst hb
      exact hsecond.state.symm.trans (agreeOn_step hct hkt hs hab.symm).symm
    · have hst := (agreeOn_step hcs hks ht hb).trans (agreeOn_step hc hk hs ha)
      have hts := (agreeOn_step hct hkt hs ha).trans (agreeOn_step hc hk ht hb)
      exact hst.trans hts.symm

/-! ## Runs -/

/-- The steps of a run that name a tier. -/
def own (id : String) (steps : List Step) : List Step := steps.filter (·.named? = some id)

/-- What a run answers to the steps that name a tier. -/
def ownTrace (id : String) (run : List (Step × Except TierError Answer)) :
    List (Step × Except TierError Answer) := run.filter (·.1.named? = some id)

/-- **A run does to a tier what the tier's own steps do**, also where they start from another state
that agrees on the tier. -/
theorem AgreeOn.run (h : AgreeOn id c d) (hc : c.Consistent) (hk : c.Keyed) {steps : List Step}
    (hs : ∀ s ∈ steps, s.named?.isSome) :
    AgreeOn id (c.after steps) (d.after (own id steps)) ∧
      ownTrace id (c.trace steps) = d.trace (own id steps) := by
  induction steps generalizing c d with
  | nil => exact ⟨h, rfl⟩
  | cons s steps ih =>
    have hmove := move_step c s
    have hrest : ∀ s ∈ steps, s.named?.isSome := fun s' hs' => hs s' (List.mem_cons_of_mem s hs')
    by_cases hid : s.named? = some id
    · have hstep := h.step hid
      obtain ⟨hafter, htrace⟩ := ih hstep.state (hmove.consistent hc) (hmove.keyed hk) hrest
      have hown : own id (s :: steps) = s :: own id steps := List.filter_cons_of_pos (by simp [hid])
      rw [hown, after_cons, after_cons]
      refine ⟨hafter, ?_⟩
      rw [trace, trace, ownTrace, List.filter_cons_of_pos (by simp [hid]), hstep.answer]
      exact congrArg _ htrace
    · obtain ⟨other, hother⟩ := Option.isSome_iff_exists.1 (hs s List.mem_cons_self)
      have hne : id ≠ other := fun he => hid (he ▸ hother)
      have hkeep := (agreeOn_step hc hk hother hne).trans h
      obtain ⟨hafter, htrace⟩ := ih hkeep (hmove.consistent hc) (hmove.keyed hk) hrest
      have hown : own id (s :: steps) = own id steps := List.filter_cons_of_neg (by simp [hid])
      rw [hown, after_cons]
      refine ⟨hafter, ?_⟩
      rw [trace, ownTrace, List.filter_cons_of_neg (by simp [hid])]
      exact htrace

/-- **Tiers are independent.** In every state that a new board comes to with any store, by any
steps: two steps that name different tiers have the same answers and the same final state in both
orders; and any run whose steps name tiers gives every tier the answers, the session and the stored
entries that the tier's own steps give alone. -/
theorem tiers_are_independent (p : Policy) (requireSettled : Bool) (store : Store)
    (before : List Step) :
    let c := (fresh p requireSettled store).after before
    (∀ s t : Step, s.named?.isSome → t.named?.isSome → s.named? ≠ t.named? →
      (c.step s).1 = ((c.step t).2.step s).1 ∧ (c.step t).1 = ((c.step s).2.step t).1 ∧
        ((c.step s).2.step t).2 = ((c.step t).2.step s).2) ∧
    ∀ steps : List Step, (∀ s ∈ steps, s.named?.isSome) → ∀ id,
      ownTrace id (c.trace steps) = c.trace (own id steps) ∧
      (c.after steps).board.session? id = (c.after (own id steps)).board.session? id ∧
      (c.after steps).store.load id = (c.after (own id steps)).store.load id := by
  intro c
  have hc : c.Consistent := (consistent_fresh p requireSettled store).after before
  have hk : c.Keyed := (keyed_fresh p requireSettled store).after before
  refine ⟨fun s t hs ht hst => ?_, fun steps hs id => ?_⟩
  · obtain ⟨a, ha⟩ := Option.isSome_iff_exists.1 hs
    obtain ⟨b, hb⟩ := Option.isSome_iff_exists.1 ht
    exact step_comm hc hk ha hb fun hab => hst (by rw [ha, hb, hab])
  · obtain ⟨hafter, htrace⟩ := (AgreeOn.refl id c).run hc hk hs
    exact ⟨htrace, hafter.session, hafter.load_eq⟩

/-- A commit of one tier is held open while another tier is edited. -/
theorem tiers_are_independent_open_commit :
    let c := (fresh default false default).after
      [.insert ⟨"t", []⟩, .insert ⟨"u", []⟩, .edit "t" (.attach "a")]
    let steps : List Step := [.startCommit "t", .edit "u" (.attach "b"), .finishCommit "t" .accepted]
    ((c.step (.startCommit "t")).2.step (.edit "u" (.attach "b"))).2 =
      ((c.step (.edit "u" (.attach "b"))).2.step (.startCommit "t")).2 ∧
    (c.after steps).store.load "t" =
      (c.after [.startCommit "t", .finishCommit "t" .accepted]).store.load "t" := by
  intro c steps
  obtain ⟨hpair, hrun⟩ := tiers_are_independent default false default
    [.insert ⟨"t", []⟩, .insert ⟨"u", []⟩, .edit "t" (.attach "a")]
  exact ⟨(hpair (.startCommit "t") (.edit "u" (.attach "b")) rfl rfl (by decide)).2.2,
    (hrun steps (by decide) "t").2.2⟩

end Coordinator

end TierBudget
