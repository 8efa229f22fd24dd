import TierBudget.Proofs.Session.Operations
import TierBudget.Proofs.Tiers
/-!
# Calls of a session

A caller may call the operations of a session in any order, in the wrong state too, and with another
policy every time; a call that fails leaves the session as it is (`Session.step`). As for a board,
what a call can do is said once, by the moves of `Session.Move`, and what every move keeps is kept
along a run (`Session.after_induction`).
-/

namespace TierBudget

namespace Session

/-- One call of a caller. -/
inductive Call where
  | edit (edit : Edit)
  | discard
  | beginCommit (settled : Bool)
  | completeCommit
  | failCommit
deriving DecidableEq

/-- What a call answers. -/
inductive Reply where
  | done
  /-- The tier that an edit leads to. -/
  | staged (tier : Tier)
  | plan (plan : CommitPlan)
deriving DecidableEq

/-- A call: its reply, and the session after it. -/
def call (p : Policy) (s : Session) : Call → Except TierError (Reply × Session)
  | .edit e => do
    let next ← s.edit p e
    return (.staged next.current, next)
  | .discard => return (.done, ← s.discard)
  | .beginCommit settled => do
    let (plan, next) ← s.beginCommit p settled
    return (.plan plan, next)
  | .completeCommit => return (.done, ← s.completeCommit)
  | .failCommit => return (.done, ← s.failCommit)

/-- A call that may fail: its outcome, and the session after it. -/
def step (s : Session) (p : Policy) (c : Call) : Except TierError Reply × Session :=
  match s.call p c with
  | .ok (r, next) => (.ok r, next)
  | .error e => (.error e, s)

/-- The session after some calls. -/
def after (s : Session) (calls : List (Policy × Call)) : Session :=
  calls.foldl (fun s x => (s.step x.1 x.2).2) s

@[simp] theorem after_cons (s : Session) (x : Policy × Call) (calls : List (Policy × Call)) :
    s.after (x :: calls) = (s.step x.1 x.2).2.after calls := rfl

theorem after_concat (s : Session) (calls : List (Policy × Call)) (x : Policy × Call) :
    s.after (calls ++ [x]) = ((s.after calls).step x.1 x.2).2 := by
  rw [after, List.foldl_append]
  rfl

/-! ## Moves -/

/-- What a call can do: the call, its outcome, and the session after it. -/
inductive Move (p : Policy) (s : Session) : Call → Except TierError Reply → Session → Prop where
  /-- A call is refused. -/
  | refuse (c : Call) (e : TierError) : Move p s c (.error e) s
  | edit {e : Edit} {t : Tier} (h : ¬ s.IsSaving) (ht : e.apply p s.current = .ok t) :
    Move p s (.edit e) (.ok (.staged t)) { s with stage := .dirty t }
  | discard (h : ¬ s.IsSaving) : Move p s .discard (.ok .done) { s with stage := .clean }
  | begin (settled : Bool) {t : Tier} (h : s.stage = .dirty t)
    (hset : requireSettled p settled t = .ok ()) :
    Move p s (.beginCommit settled) (.ok (.plan (.between p s.confirmed t)))
      { s with stage := .saving t }
  | complete {t : Tier} (h : s.stage = .saving t) :
    Move p s .completeCommit (.ok .done) ⟨t, .clean⟩
  | fail (h : s.IsSaving) : Move p s .failCommit (.ok .done) { s with stage := .clean }

variable {p : Policy} {s s' : Session} {c : Call} {r : Except TierError Reply}

theorem move_call {r : Reply} (h : s.call p c = .ok (r, s')) : Move p s c (.ok r) s' := by
  cases c with
  | edit e =>
    obtain ⟨next, hedit, he⟩ := Except.bind_eq_ok.1 h
    have hfree : ¬ s.IsSaving := fun hsaving => by
      rw [edit_of_isSaving hsaving] at hedit
      cases hedit
    obtain ⟨t, ht, rfl⟩ := (edit_eq_ok hfree).1 hedit
    cases he
    exact .edit hfree ht
  | discard =>
    obtain ⟨next, hdiscard, he⟩ := Except.bind_eq_ok.1 h
    have hfree : ¬ s.IsSaving := fun hsaving => by
      rw [discard_of_isSaving hsaving] at hdiscard
      cases hdiscard
    rw [discard_of_not_isSaving hfree] at hdiscard
    cases hdiscard
    cases he
    exact .discard hfree
  | beginCommit settled =>
    obtain ⟨⟨plan, next⟩, hbegin, he⟩ := Except.bind_eq_ok.1 h
    obtain ⟨t, hdirty, hset, rfl, rfl⟩ := beginCommit_eq_ok.1 hbegin
    cases he
    exact .begin settled hdirty hset
  | completeCommit =>
    obtain ⟨next, hcomplete, he⟩ := Except.bind_eq_ok.1 h
    cases he
    by_cases hsaving : s.IsSaving
    · obtain ⟨t, ht⟩ := isSaving_iff.1 hsaving
      rw [completeCommit_of_saving ht] at hcomplete
      cases hcomplete
      exact .complete ht
    · rw [completeCommit_of_not_isSaving hsaving] at hcomplete
      cases hcomplete
  | failCommit =>
    obtain ⟨next, hfail, he⟩ := Except.bind_eq_ok.1 h
    cases he
    by_cases hsaving : s.IsSaving
    · obtain ⟨t, ht⟩ := isSaving_iff.1 hsaving
      rw [failCommit_of_saving ht] at hfail
      cases hfail
      exact .fail hsaving
    · rw [failCommit_of_not_isSaving hsaving] at hfail
      cases hfail

/-- **Every call is a move.** -/
theorem move_step (s : Session) (p : Policy) (c : Call) :
    Move p s c (s.step p c).1 (s.step p c).2 := by
  unfold step
  split
  · next hcall => exact move_call hcall
  · next e _ => exact .refuse c e

/-- **What every move keeps is kept along a run.** -/
theorem after_induction {P : Session → Prop} {calls : List (Policy × Call)} (hs : P s)
    (h : ∀ x ∈ calls, ∀ s r s', P s → Move x.1 s x.2 r s' → P s') : P (s.after calls) := by
  induction calls generalizing s with
  | nil => exact hs
  | cons x calls ih =>
    exact ih (h x List.mem_cons_self s _ _ hs (move_step s x.1 x.2)) fun y hy =>
      h y (List.mem_cons_of_mem _ hy)

/-! ## Ids -/

/-- The tiers of a session keep their id. -/
theorem Move.hasId {id : String} (h : Move p s c r s') (hs : s.HasId id) : s'.HasId id := by
  cases h with
  | refuse => exact hs
  | edit hfree ht =>
    refine ⟨hs.confirmed, fun _ hstaged => ?_⟩
    cases hstaged
    exact (Edit.id_apply ht).trans hs.current
  | discard | fail => exact hasId_clean hs.confirmed
  | begin _ hdirty hset =>
    refine ⟨hs.confirmed, fun _ hstaged => ?_⟩
    cases hstaged
    exact hs.staged _ (staged?_eq_of_dirty hdirty)
  | complete hsaving => exact hasId_clean (hs.staged _ (staged?_eq_of_saving hsaving))

theorem HasId.after {id : String} (hs : s.HasId id) (calls : List (Policy × Call)) :
    (s.after calls).HasId id := after_induction hs fun _ _ _ _ _ hs h => h.hasId hs

end Session

end TierBudget
