import TierBudget.Board
/-!
# Board and store together

A `Coordinator` is a board, a store, and the plans of the commits that the store has not answered
yet. `Coordinator.step` is one operation of one caller; a run of steps is any interleaving of any
callers, since a commit takes two steps and others fit in between. A step that fails changes
nothing, but for a commit that the store refuses, which drops the edits of its tier.
-/

namespace TierBudget

/-- A board, a store, and the commits between them. -/
structure Coordinator where
  board : Board
  store : Store
  /-- The plans that wait for the store's answer, by tier. -/
  inFlight : Catalogue CommitPlan

namespace Coordinator

/-- One operation of one caller. -/
inductive Step where
  /-- Tracks a confirmed tier. -/
  | insert (tier : Tier)
  /-- Loads a tier from the store. -/
  | load (tierId : String)
  /-- Stages an edit. -/
  | edit (tierId : String) (edit : Session.Edit)
  /-- Drops the edits of a tier. -/
  | discard (tierId : String)
  /-- Begins a commit; the store does not answer yet. -/
  | startCommit (tierId : String)
  /-- The store answers the commit of a tier, if there is one. -/
  | finishCommit (tierId : String) (verdict : Verdict)
  /-- Replaces the stored entries of a tier. -/
  | seed (tierId : String) (entries : List (RawEntry String))
  /-- Applies a plan to the store past the board. -/
  | put (plan : CommitPlan)
  /-- Replaces the store. -/
  | replaceStore (store : Store)

/-- What a step answers. -/
inductive Answer where
  | done
  | tier (tier : Tier)
  | plan (plan : CommitPlan)
  /-- The commit waits for the store. -/
  | waiting
  /-- There is no commit that the store could answer. -/
  | idle

/-- Changes the board by an operation that answers nothing. -/
def onBoard (c : Coordinator) (r : Except TierError Board) : Except TierError (Answer × Coordinator) :=
  return (.done, { c with board := ← r })

/-- The tier as callers see it after an edit. -/
def onTier (c : Coordinator) (tierId : String) (r : Except TierError Board) :
    Except TierError (Answer × Coordinator) := do
  let board ← r
  match board.session? tierId with
  | some s => return (.tier s.current, { c with board })
  | none => .error (.unknownTier tierId)

/-- Begins a commit and keeps its plan. -/
def start (c : Coordinator) (tierId : String) : Except TierError (CommitPlan × Coordinator) := do
  let (plan, board) ← c.board.startCommit tierId
  return (plan, { c with board, inFlight := c.inFlight.insert tierId plan })

/-- Ends a commit: an accepted plan is applied to the store and becomes the confirmed tier; a
refused one drops the edits. The outcome comes with the state, which changes either way. -/
def finish (c : Coordinator) (tierId : String) (plan : CommitPlan) (verdict : Verdict) :
    Except TierError Answer × Coordinator :=
  let store := match verdict with
    | .accepted => c.store.put plan
    | .refused _ => c.store
  let c := { c with store, inFlight := c.inFlight.erase tierId }
  match c.board.finishCommit tierId verdict, verdict with
  | .ok board, .accepted => (.ok (.plan plan), { c with board })
  | .ok board, .refused e => (.error (.store e), { c with board })
  | .error _, .refused e => (.error (.store e), c)
  | .error e, .accepted => (.error e, c)

/-- Takes an outcome's state, or keeps the old one. -/
def settle (c : Coordinator) (r : Except TierError (Answer × Coordinator)) :
    Except TierError Answer × Coordinator :=
  match r with
  | .ok (a, next) => (.ok a, next)
  | .error e => (.error e, c)

/-- One step: its outcome, and the state after it. -/
def step (c : Coordinator) : Step → Except TierError Answer × Coordinator
  | .insert t => c.settle (c.onBoard (c.board.insert t))
  | .load id => c.settle do
    let (t, board) ← c.board.load c.store id
    return (.tier t, { c with board })
  | .edit id e => c.settle (c.onTier id (c.board.edit id e))
  | .discard id => c.settle (c.onBoard (c.board.discard id))
  | .startCommit id => c.settle do
    let (_, next) ← c.start id
    return (.waiting, next)
  | .finishCommit id verdict =>
    match c.inFlight.get? id with
    | none => (.ok .idle, c)
    | some plan => c.finish id plan verdict
  | .seed id entries => (.ok .done, { c with store := c.store.seed id entries })
  | .put plan => (.ok .done, { c with store := c.store.put plan })
  | .replaceStore store => (.ok .done, { c with store })

/-- A whole commit: the store answers at once. -/
def commit (c : Coordinator) (tierId : String) (verdict : Verdict) :
    Except TierError Answer × Coordinator :=
  match c.start tierId with
  | .error e => (.error e, c)
  | .ok (plan, next) => next.finish tierId plan verdict

end Coordinator

end TierBudget
