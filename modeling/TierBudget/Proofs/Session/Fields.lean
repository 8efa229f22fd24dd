import TierBudget.Proofs.Session.Calls
/-!
# Sessions in three fields

The stage of a session says at once how far its edits are and what is staged. Kept as two fields,
these could contradict each other, and the operations have to say what they do then: a commit does
not begin if nothing is staged (`Fields.beginCommit`), and it completes without a word
(`Fields.completeCommit`). Neither happens, as long as the session started clean: every call does
the same to both forms (`Session.step_fields`), whatever was called before
(`Session.after_fields`).
-/

namespace TierBudget

/-- A tier being edited, in three fields that are read and written apart. -/
structure Fields where
  confirmed : Tier
  staged? : Option Tier
  state : EditState
deriving DecidableEq

namespace Fields

/-- The fields of a session without edits. -/
def new (confirmed : Tier) : Fields := ⟨confirmed, none, .clean⟩

/-- The staged tier, or else the confirmed one. -/
def current (f : Fields) : Tier := f.staged?.getD f.confirmed

/-- Applies an edit to the current tier and keeps the result staged. -/
def edit (p : Policy) (f : Fields) (e : Session.Edit) : Except TierError Fields :=
  if f.state = .saving then .error .commitInFlight
  else return { f with staged? := some (← e.apply p f.current), state := .dirty }

/-- Drops the edits. -/
def discard (f : Fields) : Except TierError Fields :=
  if f.state = .saving then .error .commitInFlight
  else .ok { f with staged? := none, state := .clean }

/-- Freezes the staged tier, if there is one, and computes what has to be sent. -/
def beginCommit (p : Policy) (settled : Bool) (f : Fields) :
    Except TierError (CommitPlan × Fields) :=
  match f.state, f.staged? with
  | .clean, _ => .error .notDirty
  | .saving, _ => .error .commitInFlight
  | .dirty, none => .error .notDirty
  | .dirty, some t => do
    Session.requireSettled p settled t
    return (.between p f.confirmed t, { f with state := .saving })

/-- The store accepted the plan: what is staged, if anything, is confirmed. -/
def completeCommit (f : Fields) : Except TierError Fields :=
  if f.state = .saving then .ok ⟨f.staged?.getD f.confirmed, none, .clean⟩ else .error .notDirty

/-- The store refused the plan: the confirmed tier stands. -/
def failCommit (f : Fields) : Except TierError Fields :=
  if f.state = .saving then .ok { f with staged? := none, state := .clean } else .error .notDirty

/-- A call: its reply, and the fields after it. -/
def call (p : Policy) (f : Fields) : Session.Call → Except TierError (Session.Reply × Fields)
  | .edit e => do
    let next ← f.edit p e
    return (.staged next.current, next)
  | .discard => return (.done, ← f.discard)
  | .beginCommit settled => do
    let (plan, next) ← f.beginCommit p settled
    return (.plan plan, next)
  | .completeCommit => return (.done, ← f.completeCommit)
  | .failCommit => return (.done, ← f.failCommit)

/-- A call that may fail: its outcome, and the fields after it. -/
def step (f : Fields) (p : Policy) (c : Session.Call) :
    Except TierError Session.Reply × Fields :=
  match f.call p c with
  | .ok (r, next) => (.ok r, next)
  | .error e => (.error e, f)

/-- The fields after some calls. -/
def after (f : Fields) (calls : List (Policy × Session.Call)) : Fields :=
  calls.foldl (fun f x => (f.step x.1 x.2).2) f

end Fields

namespace Session

variable (p : Policy) (s : Session)

/-- The fields of a session. -/
def fields : Fields := ⟨s.confirmed, s.staged?, s.state⟩

/-! ## Operations -/

theorem edit_fields (e : Edit) : s.fields.edit p e = (s.edit p e).map fields := by
  obtain ⟨confirmed, stage⟩ := s
  cases stage with
  | saving t => rfl
  | clean =>
    change (e.apply p confirmed >>= _) = ((e.apply p confirmed) >>= _).map fields
    cases e.apply p confirmed <;> rfl
  | dirty t =>
    change (e.apply p t >>= _) = ((e.apply p t) >>= _).map fields
    cases e.apply p t <;> rfl

theorem discard_fields : s.fields.discard = s.discard.map fields := by
  obtain ⟨confirmed, stage⟩ := s
  cases stage <;> rfl

theorem beginCommit_fields (settled : Bool) :
    s.fields.beginCommit p settled =
      (s.beginCommit p settled).map fun x => (x.1, x.2.fields) := by
  obtain ⟨confirmed, stage⟩ := s
  cases stage with
  | clean => rfl
  | saving t => rfl
  | dirty t =>
    change (requireSettled p settled t >>= _) = ((requireSettled p settled t) >>= _).map _
    cases requireSettled p settled t <;> rfl

theorem completeCommit_fields : s.fields.completeCommit = s.completeCommit.map fields := by
  obtain ⟨confirmed, stage⟩ := s
  cases stage <;> rfl

theorem failCommit_fields : s.fields.failCommit = s.failCommit.map fields := by
  obtain ⟨confirmed, stage⟩ := s
  cases stage <;> rfl

/-! ## Calls -/

theorem call_fields (c : Call) :
    s.fields.call p c = (s.call p c).map fun x => (x.1, x.2.fields) := by
  cases c with
  | edit e =>
    rw [Fields.call, call, edit_fields]
    cases s.edit p e <;> rfl
  | discard =>
    rw [Fields.call, call, discard_fields]
    cases s.discard <;> rfl
  | beginCommit settled =>
    rw [Fields.call, call, beginCommit_fields]
    cases s.beginCommit p settled <;> rfl
  | completeCommit =>
    rw [Fields.call, call, completeCommit_fields]
    cases s.completeCommit <;> rfl
  | failCommit =>
    rw [Fields.call, call, failCommit_fields]
    cases s.failCommit <;> rfl

/-- **Every call does the same to the fields of a session as to the session.** -/
theorem step_fields (c : Call) : s.fields.step p c = ((s.step p c).1, (s.step p c).2.fields) := by
  rw [Fields.step, step, call_fields]
  cases s.call p c <;> rfl

/-- **So do many calls**, and the fields never contradict each other. -/
theorem after_fields (calls : List (Policy × Call)) :
    s.fields.after calls = (s.after calls).fields := by
  induction calls generalizing s with
  | nil => rfl
  | cons x calls ih =>
    rw [after_cons, ← ih, Fields.after, List.foldl_cons, step_fields]
    rfl

end Session

end TierBudget
