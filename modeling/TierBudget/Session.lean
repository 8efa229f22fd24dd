import TierBudget.Tier
/-!
# Editing sessions

A session shows a tier as the store last confirmed it and, over it, the edits that are not sent yet.
It is clean, dirty while edits are staged, and saving while a commit waits for the store's answer; a
staged tier is there exactly in the last two. `Session.beginCommit` computes the `CommitPlan`, the
difference between the confirmed and the staged tier that goes to the store.
-/

namespace TierBudget

/-- What a commit sends to the store. -/
structure CommitPlan where
  tierId : String
  /-- The counts that are new or changed. -/
  updates : List (FixedEntry String)
  /-- The endpoints that are detached. -/
  removed : List String
deriving DecidableEq

namespace CommitPlan

/-- Whether a plan changes nothing. -/
def isEmpty (plan : CommitPlan) : Bool := plan.updates.isEmpty && plan.removed.isEmpty

/-- The count of an id, the last one where it is listed more than once. -/
def countOf? (entries : List (FixedEntry String)) (id : String) : Option Count :=
  (entries.reverse.find? (·.id = id)).map FixedEntry.count

/-- What leads from the confirmed tier to the staged one. -/
def between (p : Policy) (confirmed staged : Tier) : CommitPlan :=
  let old := confirmed.fixedWeights p
  { tierId := staged.id
    updates := (staged.fixedWeights p).filter fun w => countOf? old w.id ≠ some w.count
    removed := confirmed.ids.filter fun id => !staged.contains id }

end CommitPlan

/-- How far the edits of a session are. -/
inductive Stage where
  /-- There are none. -/
  | clean
  /-- They are not sent yet. -/
  | dirty (staged : Tier)
  /-- They wait for the store's answer. -/
  | saving (staged : Tier)
deriving DecidableEq

/-- A stage without its tier, as others see it. -/
inductive EditState where
  | clean
  | dirty
  | saving
deriving DecidableEq

/-- The name of an edit state in texts. -/
def EditState.name : EditState → String
  | .clean => "clean"
  | .dirty => "dirty"
  | .saving => "saving"

/-- A tier being edited. -/
structure Session where
  confirmed : Tier
  stage : Stage
deriving DecidableEq

namespace Session

/-- A session without edits. -/
def new (confirmed : Tier) : Session := ⟨confirmed, .clean⟩

/-- The edits of a session, if any. -/
def staged? (s : Session) : Option Tier :=
  match s.stage with
  | .clean => none
  | .dirty t | .saving t => some t

/-- The edit state of a session. -/
def state (s : Session) : EditState :=
  match s.stage with
  | .clean => .clean
  | .dirty _ => .dirty
  | .saving _ => .saving

/-- The staged tier, or else the confirmed one. -/
def current (s : Session) : Tier := s.staged?.getD s.confirmed

/-- An edit of a tier. -/
inductive Edit where
  | weight (id : String) (unit : Float)
  | attach (id : String)
  | detach (id : String)
deriving DecidableEq

/-- The tier that an edit leads to. -/
def Edit.apply (p : Policy) (t : Tier) : Edit → Except TierError Tier
  | .weight id unit => t.setWeight p id unit
  | .attach id => t.attach p id
  | .detach id => t.detach p id

/-- Applies an edit to the current tier and keeps the result staged. Nothing is edited while a
commit is in flight. -/
def edit (p : Policy) (s : Session) (e : Edit) : Except TierError Session :=
  match s.stage with
  | .saving _ => .error .commitInFlight
  | _ => return { s with stage := .dirty (← e.apply p s.current) }

/-- Drops the edits. -/
def discard (s : Session) : Except TierError Session :=
  match s.stage with
  | .saving _ => .error .commitInFlight
  | _ => .ok { s with stage := .clean }

/-- Refuses a tier that is not settled, where that is asked for. -/
def requireSettled (p : Policy) (settled : Bool) (t : Tier) : Except TierError Unit :=
  if settled then
    match t.isSettled? p.scale with
    | some true => .ok ()
    | some false => .error (.vacatedEndpoints t.vacated)
    | none => .error .countOverflow
  else .ok ()

/-- Freezes the staged tier and computes what has to be sent. -/
def beginCommit (p : Policy) (settled : Bool) (s : Session) :
    Except TierError (CommitPlan × Session) :=
  match s.stage with
  | .clean => .error .notDirty
  | .saving _ => .error .commitInFlight
  | .dirty t => do
    requireSettled p settled t
    return (.between p s.confirmed t, { s with stage := .saving t })

/-- The store accepted the plan: the staged tier is the confirmed one. -/
def completeCommit (s : Session) : Except TierError Session :=
  match s.stage with
  | .saving t => .ok ⟨t, .clean⟩
  | _ => .error .notDirty

/-- The store refused the plan: the confirmed tier stands. -/
def failCommit (s : Session) : Except TierError Session :=
  match s.stage with
  | .saving _ => .ok { s with stage := .clean }
  | _ => .error .notDirty

end Session

end TierBudget
