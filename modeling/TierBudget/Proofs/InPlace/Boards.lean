import TierBudget.Proofs.Coordinator.Moves
import TierBudget.Proofs.InPlace.Sessions
/-!
# Boards changed in place

The requests to a board as computations on its sessions (`Board.Request.inPlace`): one session is
changed where it lies, and stays changed even if the request fails afterwards. A board asks any
store (`Backend`), which may refuse. The only request that fails behind a change is a commit that
the store refuses, and its rollback undoes the change up to the edits that it drops
(`Board.failures_leave_no_trace`).
-/

namespace TierBudget

open InPlace

/-- A store as a board sees it: what it answers when it is called. -/
structure Backend where
  load : String → Except StoreError (List (RawEntry String))
  put : CommitPlan → Verdict

namespace Board

/-! ## Requests -/

/-- A request to a board. -/
inductive Request where
  | insert (tier : Tier)
  | load (tierId : String)
  | edit (tierId : String) (edit : Session.Edit)
  | discard (tierId : String)
  /-- A whole commit: the store answers at once. -/
  | commit (tierId : String)

/-- The tier that a request is about. -/
def Request.tierId : Request → String
  | .insert t => t.id
  | .load id | .edit id _ | .discard id | .commit id => id

section

variable {α : Type} (p : Policy) (settled : Bool) (backend : Backend)

/-- Changes the session of a tier where it lies. -/
def withSession (tierId : String) (m : InPlace Fields α) : InPlace (Catalogue Fields) α := do
  match (← get).get? tierId with
  | none => throw (.unknownTier tierId)
  | some f =>
    let (answered, next) := m.outcome f
    modify (·.insert tierId next)
    answer answered

/-- Tracks a confirmed tier, unless its session is saving. -/
def insertInPlace (t : Tier) : InPlace (Catalogue Fields) Unit := do
  if ((← get).get? t.id).map Fields.state = some .saving then throw .commitInFlight
  modify (·.insert t.id (.new t))

/-- Loads a tier. -/
def loadInPlace (tierId : String) : InPlace (Catalogue Fields) Tier := do
  let stored ← answer ((backend.load tierId).mapError .store)
  let t := Tier.ofStored p tierId stored
  insertInPlace t
  return t

/-- Ends a commit as the store answered. A rollback that fails is passed over. -/
def finishInPlace (tierId : String) (plan : CommitPlan) :
    Verdict → InPlace (Catalogue Fields) CommitPlan
  | .accepted => do
    withSession tierId Fields.completeCommitInPlace
    return plan
  | .refused e => do
    tryCatch (withSession tierId Fields.failCommitInPlace) fun _ => pure ()
    throw (.store e)

/-- Begins a commit and asks the store. -/
def commitInPlace (tierId : String) : InPlace (Catalogue Fields) CommitPlan := do
  let plan ← withSession tierId (Fields.beginCommitInPlace p settled)
  finishInPlace tierId plan (backend.put plan)

/-- A request in place. -/
def Request.inPlace : Request → InPlace (Catalogue Fields) Coordinator.Answer
  | .insert t => (fun _ => .done) <$> insertInPlace t
  | .load id => .tier <$> loadInPlace p backend id
  | .edit id e => .tier <$> withSession id (Fields.editInPlace p e)
  | .discard id => (fun _ => .done) <$> withSession id Fields.discardInPlace
  | .commit id => .plan <$> commitInPlace p settled backend id

/-- An operation on the session of a tier. -/
def onFields (tierId : String) (f : Fields → Except TierError (α × Fields))
    (sessions : Catalogue Fields) : Except TierError (α × Catalogue Fields) :=
  match sessions.get? tierId with
  | none => .error (.unknownTier tierId)
  | some s => (f s).map fun x => (x.1, sessions.insert tierId x.2)

/-- The error with which the store refuses a commit, if the request gets as far as to ask it. -/
def Request.refusal? (sessions : Catalogue Fields) : Request → Option StoreError
  | .commit id =>
    match onFields id (Fields.beginCommit p settled) sessions with
    | .error _ => none
    | .ok (plan, _) =>
      match backend.put plan with
      | .accepted => none
      | .refused e => some e
  | _ => none

end

/-! ## What they do -/

section

variable {α : Type} {m : InPlace Fields α} {f : Fields → Except TierError (α × Fields)}
  (p : Policy) (settled : Bool) (backend : Backend) (id : String)

theorem onFields_of_get? {sessions : Catalogue Fields} {s : Fields}
    (h : sessions.get? id = some s) :
    onFields id f sessions = (f s).map fun x => (x.1, sessions.insert id x.2) := by
  rw [onFields, h]

theorem outcome_withSession {sessions : Catalogue Fields} {s : Fields}
    (h : sessions.get? id = some s) :
    (withSession id m).outcome sessions =
      ((m.outcome s).1, sessions.insert id (m.outcome s).2) := by
  simp [withSession, outcome_bind, h]

theorem outcome_withSession_none {sessions : Catalogue Fields} (h : sessions.get? id = none) :
    (withSession id m).outcome sessions = (.error (.unknownTier id), sessions) := by
  simp [withSession, outcome_bind, h]

/-- Putting a session back as it was changes nothing, so what fails on a session without a trace
fails on the board without one. -/
theorem performs_withSession (h : m.Performs f) : (withSession id m).Performs (onFields id f) := by
  intro sessions
  cases hs : sessions.get? id with
  | none => rw [outcome_withSession_none id hs, onFields, hs]
  | some s =>
    rw [outcome_withSession id hs, onFields_of_get? id hs, h s]
    rcases f s with e | ⟨a, s'⟩
    · exact Prod.ext rfl (Catalogue.insert_of_get? hs)
    · rfl

/-- Tracking a tier. -/
def insertFields (t : Tier) (sessions : Catalogue Fields) : Except TierError (Catalogue Fields) :=
  if (sessions.get? t.id).map Fields.state = some .saving then .error .commitInFlight
  else .ok (sessions.insert t.id (.new t))

theorem performs_insertInPlace (t : Tier) :
    (insertInPlace t).Performs fun s => (insertFields t s).map fun s' => ((), s') := by
  intro sessions
  by_cases h : (sessions.get? t.id).map Fields.state = some .saving
  · simp only [insertInPlace, insertFields, outcome_bind, outcome_get, if_pos h, outcome_throw,
      Except.map]
  · simp only [insertInPlace, insertFields, outcome_bind, outcome_get, if_neg h, outcome_modify,
      Except.map]

theorem performs_loadInPlace :
    (loadInPlace p backend id).Performs fun s => do
      let stored ← (backend.load id).mapError .store
      let t := Tier.ofStored p id stored
      return (t, ← insertFields t s) := by
  simp only [loadInPlace, bind_pure_comp]
  refine Performs.answer_bind fun stored => ?_
  let t := Tier.ofStored p id stored
  refine ((performs_insertInPlace t).map fun _ => t).congr fun sessions => ?_
  cases h : insertFields t sessions <;> rfl

/-- While the session is saving, a commit ends without an error of its own. -/
theorem outcome_finishInPlace (plan : CommitPlan) (v : Verdict) {sessions : Catalogue Fields}
    {s : Fields} (hs : sessions.get? id = some s) (hsaving : s.state = .saving) :
    (finishInPlace id plan v).outcome sessions = match v with
      | .accepted => (.ok plan, sessions.insert id (.new s.current))
      | .refused e => (.error (.store e), sessions.insert id (.new s.confirmed)) := by
  cases v with
  | accepted =>
    have hend : onFields id (fun f => f.completeCommit.map fun f' => ((), f')) sessions =
        .ok ((), sessions.insert id (.new s.current)) := by
      rw [onFields_of_get? id hs, Fields.completeCommit, if_pos hsaving]
      rfl
    simp only [finishInPlace, outcome_bind, outcome_pure,
      (performs_withSession id Fields.performs_completeCommitInPlace).ok hend]
  | refused e =>
    have hend : onFields id (fun f => f.failCommit.map fun f' => ((), f')) sessions =
        .ok ((), sessions.insert id (.new s.confirmed)) := by
      rw [onFields_of_get? id hs, Fields.failCommit, if_pos hsaving]
      rfl
    simp only [finishInPlace, outcome_bind, outcome_tryCatch, outcome_throw,
      (performs_withSession id Fields.performs_failCommitInPlace).ok hend]

/-- A commit begins with a dirty session and leaves it saving. -/
theorem onFields_beginCommit_eq_ok {sessions begun : Catalogue Fields} {plan : CommitPlan}
    (h : onFields id (Fields.beginCommit p settled) sessions = .ok (plan, begun)) :
    ∃ s, sessions.get? id = some s ∧ s.state = .dirty ∧
      begun = sessions.insert id { s with state := .saving } := by
  cases hs : sessions.get? id with
  | none =>
    rw [onFields, hs] at h
    cases h
  | some s =>
    rw [onFields_of_get? id hs] at h
    cases hplan : s.beginCommit p settled with
    | error e =>
      rw [hplan] at h
      cases h
    | ok x =>
      obtain ⟨hdirty, hs'⟩ := Fields.beginCommit_eq_ok hplan
      rw [hplan] at h
      cases h
      exact ⟨s, rfl, hdirty, by rw [hs']⟩

/-- What a commit comes to, from whatever the sessions hold. -/
theorem outcome_commitInPlace (sessions : Catalogue Fields) :
    (commitInPlace p settled backend id).outcome sessions =
      match onFields id (Fields.beginCommit p settled) sessions with
      | .error e => (.error e, sessions)
      | .ok (plan, begun) => (finishInPlace id plan (backend.put plan)).outcome begun := by
  rw [commitInPlace, outcome_bind,
    performs_withSession id (Fields.performs_beginCommitInPlace p settled) sessions]
  rcases onFields id (Fields.beginCommit p settled) sessions with e | ⟨plan, begun⟩ <;> rfl

/-! ## Failures -/

/-- A request that fails changes nothing, unless the store refuses a commit; then the edits of its
tier are dropped, as a discard would do it. -/
theorem Request.eq_of_error (r : Request) {sessions next : Catalogue Fields} {e : TierError}
    (h : (r.inPlace p settled backend).outcome sessions = (.error e, next)) :
    match r.refusal? p settled backend sessions with
    | none => next = sessions
    | some refusal => e = .store refusal ∧
        (∃ f, sessions.get? r.tierId = some f ∧
          next = sessions.insert r.tierId (.new f.confirmed)) ∧
        (Request.inPlace p settled backend (.discard r.tierId)).outcome sessions =
          (.ok .done, next) := by
  cases r with
  | insert t => exact ((performs_insertInPlace t).map _).eq_of_error h
  | load id => exact ((performs_loadInPlace p backend id).map _).eq_of_error h
  | edit id edit =>
    exact ((performs_withSession id (Fields.performs_editInPlace p edit)).map _).eq_of_error h
  | discard id =>
    exact ((performs_withSession id Fields.performs_discardInPlace).map _).eq_of_error h
  | commit id =>
    rw [Request.inPlace, outcome_map, outcome_commitInPlace] at h
    cases hplan : onFields id (Fields.beginCommit p settled) sessions with
    | error e =>
      rw [hplan] at h
      simp only [refusal?, hplan]
      exact (Prod.mk.inj h).2.symm
    | ok x =>
      obtain ⟨plan, begun⟩ := x
      obtain ⟨s, hs, hdirty, rfl⟩ := onFields_beginCommit_eq_ok p settled id hplan
      have hbegun : (sessions.insert id { s with state := .saving }).get? id =
        some { s with state := .saving } := by simp
      rw [hplan] at h
      simp only [outcome_finishInPlace id plan _ hbegun rfl, Catalogue.insert_insert] at h
      cases hput : backend.put plan with
      | accepted =>
        rw [hput] at h
        cases h
      | refused e =>
        rw [hput] at h
        cases h
        simp only [refusal?, hplan, hput]
        refine ⟨trivial, ⟨s, hs, rfl⟩, ?_⟩
        -- a dirty session can be discarded, which is all that is left of the commit
        have hdiscard : onFields id (fun f => f.discard.map fun f' => ((), f')) sessions =
            .ok ((), sessions.insert id (.new s.confirmed)) := by
          rw [onFields_of_get? id hs, Fields.discard, if_neg (by simp [hdirty])]
          rfl
        exact ((performs_withSession id Fields.performs_discardInPlace).map _).ok
          (by rw [hdiscard]; rfl)

end

/-! ## The board in fields -/

section

variable {α : Type} (b : Board) (id : String)

/-- The sessions of a board in fields. -/
def fields : Catalogue Fields := b.sessions.map Session.fields

@[simp] theorem get?_fields : b.fields.get? id = (b.session? id).map Session.fields :=
  Catalogue.get?_map ..

theorem fields_setSession (s : Session) :
    (b.setSession id s).fields = b.fields.insert id s.fields := Catalogue.map_insert ..

theorem insertFields_fields (t : Tier) : insertFields t b.fields = (b.insert t).map fields := by
  unfold insertFields insert
  rw [get?_fields, Option.map_map]
  change (if (b.session? t.id).map Session.state = some .saving then _ else _) = _
  split
  · next h =>
    rw [h]
    rfl
  · next h =>
    split
    · next hs => exact absurd hs h
    · exact congrArg Except.ok (b.fields_setSession t.id (.new t)).symm

/-- What does the same to the fields of a session as to the session does the same on the board. -/
theorem onFields_fields {f : Session → Except TierError (α × Session)}
    {g : Fields → Except TierError (α × Fields)}
    (h : ∀ s : Session, g s.fields = (f s).map fun x => (x.1, x.2.fields)) :
    onFields id g b.fields = match b.session? id with
      | none => .error (.unknownTier id)
      | some s => (f s).map fun x => (x.1, (b.setSession id x.2).fields) := by
  unfold onFields
  rw [get?_fields]
  cases b.session? id with
  | none => rfl
  | some s =>
    rw [Option.map_some]
    simp only [h]
    cases f s with
    | error e => rfl
    | ok x => exact congrArg (fun y => Except.ok (x.1, y)) (b.fields_setSession id x.2).symm

theorem onFields_beginCommit_fields :
    onFields id (Fields.beginCommit b.policy b.requireSettled) b.fields =
      (b.startCommit id).map fun x => (x.1, x.2.fields) := by
  rw [onFields_fields b id fun s => s.beginCommit_fields b.policy b.requireSettled, startCommit]
  cases b.session? id with
  | none => rfl
  | some s => cases hs : s.beginCommit b.policy b.requireSettled <;> simp [hs, Except.map]

end

end Board

namespace Coordinator

open Board

/-- A request to the board and its store; the store answers a commit at once. -/
def request (c : Coordinator) (v : Verdict) : Request → Except TierError Answer × Coordinator
  | .insert t => c.step (.insert t)
  | .load id => c.step (.load id)
  | .edit id e => c.step (.edit id e)
  | .discard id => c.step (.discard id)
  | .commit id => c.commit id v

/-- The store as its board sees it, with the next answer to a commit. -/
def backend (c : Coordinator) (v : Verdict) : Backend := ⟨c.store.load, fun _ => v⟩

/-- What a request answers, and the sessions that it leaves, in fields. -/
def seen (x : Except TierError Answer × Coordinator) : Except TierError Answer × Catalogue Fields :=
  (x.1, x.2.board.fields)

/-- Where what is performed in place leads where the operation leads, so does the step. -/
theorem outcome_settle {m : InPlace (Catalogue Fields) Answer}
    {f : Catalogue Fields → Except TierError (Answer × Catalogue Fields)} (h : m.Performs f)
    {c : Coordinator} {r : Except TierError (Answer × Coordinator)}
    (hf : f c.board.fields = r.map fun x => (x.1, x.2.board.fields)) :
    m.outcome c.board.fields = seen (c.settle r) := by
  rw [h, hf]
  cases r <;> rfl

/-- The end of a commit whose session is saving. -/
theorem seen_finish {c : Coordinator} {id : String} {s : Session} {t : Tier}
    (hs : c.board.session? id = some s) (ht : s.stage = .saving t) (plan : CommitPlan)
    (v : Verdict) :
    seen (c.finish id plan v) = match v with
      | .accepted => (.ok (.plan plan), c.board.fields.insert id (.new t))
      | .refused e => (.error (.store e), c.board.fields.insert id (.new s.confirmed)) := by
  cases v with
  | accepted =>
    have hfinish : c.board.finishCommit id .accepted = .ok (c.board.setSession id ⟨t, .clean⟩) :=
      modifySession_eq_ok.2 ⟨s, _, hs, Session.completeCommit_of_saving ht, rfl⟩
    simp only [seen, finish, hfinish, fields_setSession]
    rfl
  | refused e =>
    have hfinish : c.board.finishCommit id (.refused e) =
        .ok (c.board.setSession id { s with stage := .clean }) :=
      modifySession_eq_ok.2 ⟨s, _, hs, Session.failCommit_of_saving ht, rfl⟩
    simp only [seen, finish, hfinish, fields_setSession]
    rfl

/-- **A request in place does what the request does.** -/
theorem outcome_inPlace (c : Coordinator) (v : Verdict) (r : Request) :
    (r.inPlace c.board.policy c.board.requireSettled (c.backend v)).outcome c.board.fields =
      seen (c.request v r) := by
  cases r with
  | insert t =>
    refine outcome_settle ((performs_insertInPlace t).map _) ?_
    rw [insertFields_fields, onBoard]
    cases c.board.insert t <;> rfl
  | load id =>
    refine outcome_settle ((performs_loadInPlace _ _ id).map _) ?_
    simp only [Board.load, insertStored, insertFields_fields, backend]
    cases c.store.load id with
    | error e => rfl
    | ok stored =>
      simp only [Except.mapError, bind, Except.bind]
      cases c.board.insert (Tier.ofStored c.board.policy id stored) <;> rfl
  | edit id e =>
    refine outcome_settle ((performs_withSession id (Fields.performs_editInPlace _ e)).map _) ?_
    have hedit (s : Session) : ((s.fields.edit c.board.policy e).map fun f => (f.current, f)) =
        ((s.edit c.board.policy e).map fun s => (s.current, s)).map fun x => (x.1, x.2.fields) := by
      rw [s.edit_fields]
      cases s.edit c.board.policy e <;> rfl
    rw [onFields_fields c.board id hedit, onTier, Board.edit, modifySession]
    cases c.board.session? id with
    | none => rfl
    | some s =>
      simp only [bind, Except.bind]
      cases s.edit c.board.policy e with
      | error err => rfl
      | ok s' => simp [Except.map, pure, Except.pure]
  | discard id =>
    refine outcome_settle ((performs_withSession id Fields.performs_discardInPlace).map _) ?_
    have hdiscard (s : Session) : (s.fields.discard.map fun f => ((), f)) =
        (s.discard.map fun s => ((), s)).map fun x => (x.1, x.2.fields) := by
      rw [s.discard_fields]
      cases s.discard <;> rfl
    rw [onFields_fields c.board id hdiscard, onBoard, Board.discard, modifySession]
    cases c.board.session? id with
    | none => rfl
    | some s =>
      simp only
      cases s.discard <;> rfl
  | commit id =>
    rw [Request.inPlace, outcome_map, outcome_commitInPlace, onFields_beginCommit_fields, request,
      commit, start]
    cases hstart : c.board.startCommit id with
    | error e => rfl
    | ok x =>
      obtain ⟨plan, b⟩ := x
      obtain ⟨s, t, hs, hdirty, -, -, rfl⟩ := startCommit_eq_ok.1 hstart
      have hsaving : (c.board.setSession id { s with stage := .saving t }).session? id =
          some { s with stage := .saving t } := by simp
      have hfields : (c.board.setSession id { s with stage := .saving t }).fields.get? id =
          some (Session.fields { s with stage := .saving t }) := by simp
      change (((finishInPlace id plan v).outcome _).1.map Answer.plan,
        ((finishInPlace id plan v).outcome _).2) = seen (finish _ id plan v)
      rw [seen_finish hsaving rfl, outcome_finishInPlace id plan v hfields rfl]
      cases v <;> rfl

end Coordinator

namespace InPlace

open Board

/-- **Failures leave no trace.** Assigned in place, a tier, a session and the sessions of a board are
after a failure exactly what they were before it, whatever the session fields hold. Only a commit
that the store refuses leaves something, which is what a discard of its tier leaves. All of it does
what the operations do. -/
theorem failures_leave_no_trace (p : Policy) :
    (∀ (e : Session.Edit) (t t' : Tier) (err : TierError),
      (e.inPlace p).outcome t = (.error err, t') → t' = t) ∧
    (∀ (call : Session.Call) (f f' : Fields) (err : TierError),
      (call.inPlace p).outcome f = (.error err, f') → f' = f) ∧
    (∀ (settled : Bool) (backend : Backend) (r : Request) (sessions next : Catalogue Fields)
      (err : TierError),
      (r.inPlace p settled backend).outcome sessions = (.error err, next) →
        match r.refusal? p settled backend sessions with
        | none => next = sessions
        | some refusal => err = .store refusal ∧
            (∃ f, sessions.get? r.tierId = some f ∧
              next = sessions.insert r.tierId (.new f.confirmed)) ∧
            (Request.inPlace p settled backend (.discard r.tierId)).outcome sessions =
              (.ok .done, next)) ∧
    (∀ (e : Session.Edit) (t : Tier), (e.inPlace p).outcome t =
      match e.apply p t with
      | .ok t' => (.ok (), t')
      | .error err => (.error err, t)) ∧
    (∀ (call : Session.Call) (s : Session), (call.inPlace p).outcome s.fields =
      ((s.step p call).1, (s.step p call).2.fields)) ∧
    ∀ (c : Coordinator) (v : Verdict) (r : Request), c.board.policy = p →
      (r.inPlace p c.board.requireSettled (c.backend v)).outcome c.board.fields =
        ((c.request v r).1, (c.request v r).2.board.fields) := by
  refine ⟨fun e t t' err h => (e.performs_inPlace p).eq_of_error h,
    fun call f f' err h => (call.performs_inPlace p).eq_of_error h,
    fun settled backend r sessions next err h => r.eq_of_error p settled backend h,
    fun e t => ?_, fun call s => ?_, fun c v r hp => ?_⟩
  · rw [e.performs_inPlace p t]
    beta_reduce
    cases e.apply p t <;> rfl
  · rw [call.performs_inPlace p s.fields, ← s.step_fields p call, Fields.step]
    beta_reduce
    cases s.fields.call p call <;> rfl
  · rw [← hp]
    exact c.outcome_inPlace v r

/-- The store refuses the commit of an attached endpoint. -/
theorem failures_leave_no_trace_refused :
    let sessions : Catalogue Fields :=
      .insert .empty "t" ⟨⟨"t", []⟩, some ⟨"t", [⟨"a", 1⟩]⟩, .dirty⟩
    let backend : Backend := ⟨fun _ => .ok [], fun _ => .refused (.rejected "full")⟩
    let x := (Request.inPlace default false backend (.commit "t")).outcome sessions
    x.1 = .error (.store (.rejected "full")) ∧ x.2 = sessions.insert "t" (.new ⟨"t", []⟩) := by
  intro sessions backend x
  have hfail : x.1 = .error (.store (.rejected "full")) := rfl
  obtain ⟨-, -, hboard, -⟩ := failures_leave_no_trace default
  obtain ⟨-, ⟨f, hf, hnext⟩, -⟩ := hboard false backend (.commit "t") sessions x.2 _
    (Prod.ext hfail rfl)
  have hsession : sessions.get? "t" = some ⟨⟨"t", []⟩, some ⟨"t", [⟨"a", 1⟩]⟩, .dirty⟩ := rfl
  cases hf.symm.trans hsession
  exact ⟨hfail, hnext⟩

end InPlace

end TierBudget
