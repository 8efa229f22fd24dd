import TierBudget.Store
/-!
# Boards

A board tracks the sessions of many tiers under one policy. Every operation names the tier it works
on and leaves the other sessions alone. A commit has two halves, `Board.startCommit` before the
store is asked and `Board.finishCommit` after it has answered; in between the session is saving.
-/

namespace TierBudget

/-- The tiers being edited. -/
structure Board where
  policy : Policy
  /-- Whether tiers with endpoints without weight are kept from being committed. -/
  requireSettled : Bool
  sessions : Catalogue Session

/-- What a store answers to a commit. -/
inductive Verdict where
  | accepted
  | refused (error : StoreError)
deriving DecidableEq

namespace Board

/-- A board without tiers. -/
def new (policy : Policy) (requireSettled : Bool) : Board := ⟨policy, requireSettled, .empty⟩

/-- The session of a tier. -/
def session? (b : Board) (tierId : String) : Option Session := b.sessions.get? tierId

/-- Puts a session under a tier's id. -/
def setSession (b : Board) (tierId : String) (s : Session) : Board :=
  { b with sessions := b.sessions.insert tierId s }

/-- Changes the session of a tier. -/
def modifySession (b : Board) (tierId : String) (f : Session → Except TierError Session) :
    Except TierError Board :=
  match b.session? tierId with
  | none => .error (.unknownTier tierId)
  | some s => return b.setSession tierId (← f s)

/-- Tracks a confirmed tier, in place of any session it has, unless that session is saving. -/
def insert (b : Board) (t : Tier) : Except TierError Board :=
  match (b.session? t.id).map Session.state with
  | some .saving => .error .commitInFlight
  | _ => .ok (b.setSession t.id (.new t))

/-- Tracks a tier with the weights that a store holds for it. -/
def insertStored (b : Board) (tierId : String) (stored : List (RawEntry String)) :
    Except TierError (Tier × Board) := do
  let t := Tier.ofStored b.policy tierId stored
  return (t, ← b.insert t)

/-- Loads a tier from a store. -/
def load (b : Board) (store : Store) (tierId : String) : Except TierError (Tier × Board) := do
  let stored ← (store.load tierId).mapError .store
  b.insertStored tierId stored

/-- Stages an edit of a tier. -/
def edit (b : Board) (tierId : String) (e : Session.Edit) : Except TierError Board :=
  b.modifySession tierId (·.edit b.policy e)

/-- Drops the edits of a tier. -/
def discard (b : Board) (tierId : String) : Except TierError Board :=
  b.modifySession tierId Session.discard

/-- Begins to commit a tier: the plan for the store, and the board that waits for its answer. -/
def startCommit (b : Board) (tierId : String) : Except TierError (CommitPlan × Board) :=
  match b.session? tierId with
  | none => .error (.unknownTier tierId)
  | some s => do
    let (plan, s) ← s.beginCommit b.policy b.requireSettled
    return (plan, b.setSession tierId s)

/-- Ends the commit of a tier as the store answered. -/
def finishCommit (b : Board) (tierId : String) : Verdict → Except TierError Board
  | .accepted => b.modifySession tierId Session.completeCommit
  | .refused _ => b.modifySession tierId Session.failCommit

end Board

end TierBudget
