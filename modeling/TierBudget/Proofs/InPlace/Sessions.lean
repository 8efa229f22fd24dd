import TierBudget.Proofs.Session.Fields
/-!
# Tiers and sessions changed in place

The operations return what they lead to, so one that fails has nothing to leave behind. Here they are
once more as computations that change a state as they go (`InPlace`), assignment by assignment: what
has been assigned before a failure stays assigned. `InPlace.Performs` says that such a computation
does what an operation does and, where it fails, leaves the state as it found it. It holds of the
edits of a tier (`Session.Edit.performs_inPlace`) because they compute first and assign last, and of
the calls of a session (`Session.Call.performs_inPlace`) because an edit works on a copy of the tier
and no check follows an assignment.
-/

namespace TierBudget

/-! ## Computations in place -/

/-- A computation that changes a state as it goes. When it fails, the changes stay. -/
abbrev InPlace (σ α : Type) := ExceptT TierError (StateM σ) α

namespace InPlace

variable {σ α : Type} {m : InPlace σ α} {f : σ → Except TierError (α × σ)}

/-- What a computation answers, and the state that it leaves. -/
def outcome (m : InPlace σ α) (s : σ) : Except TierError α × σ := m.run s

/-- An answer that is known already. -/
def answer : Except TierError α → InPlace σ α
  | .ok a => pure a
  | .error e => throw e

@[simp] theorem outcome_pure (a : α) (s : σ) : (pure a : InPlace σ α).outcome s = (.ok a, s) := rfl

@[simp] theorem outcome_throw (e : TierError) (s : σ) :
    (throw e : InPlace σ α).outcome s = (.error e, s) := rfl

@[simp] theorem outcome_get (s : σ) : (get : InPlace σ σ).outcome s = (.ok s, s) := rfl

@[simp] theorem outcome_modify (g : σ → σ) (s : σ) :
    (modify g : InPlace σ PUnit).outcome s = (.ok (), g s) := rfl

/-- What is done after a failure starts from where it happened. -/
theorem outcome_tryCatch (m : InPlace σ α) (g : TierError → InPlace σ α) (s : σ) :
    (tryCatch m g).outcome s = match m.outcome s with
      | (.ok a, s') => (.ok a, s')
      | (.error e, s') => (g e).outcome s' := by
  unfold outcome
  rw [ExceptT.run_tryCatch]
  change (StateT.bind m.run _ : StateM σ _) s = _
  simp only [StateT.bind]
  change (match m.run s with | (r, s') => _) = _
  rcases m.run s with ⟨_ | a, s'⟩ <;> rfl

@[simp] theorem outcome_answer (r : Except TierError α) (s : σ) :
    (answer r : InPlace σ α).outcome s = (r, s) := by cases r <;> rfl

/-- A failure stops a sequence where it happens. -/
theorem outcome_bind {β : Type} (m : InPlace σ α) (g : α → InPlace σ β) (s : σ) :
    (m >>= g).outcome s = match m.outcome s with
      | (.ok a, s') => (g a).outcome s'
      | (.error e, s') => (.error e, s') := by
  have hrun : (m >>= g).outcome s =
      (ExceptT.bindCont g (m.outcome s).1 : StateM σ (Except TierError β)) (m.outcome s).2 := rfl
  rw [hrun]
  rcases m.outcome s with ⟨_ | a, s'⟩ <;> rfl

theorem outcome_map {β : Type} (g : α → β) (m : InPlace σ α) (s : σ) :
    (g <$> m).outcome s = ((m.outcome s).1.map g, (m.outcome s).2) := by
  rw [map_eq_pure_bind, outcome_bind]
  rcases m.outcome s with ⟨_ | a, s'⟩ <;> rfl

/-- The computation does what the function says; where that fails, nothing is changed. -/
def Performs (m : InPlace σ α) (f : σ → Except TierError (α × σ)) : Prop :=
  ∀ s, m.outcome s = match f s with
    | .ok (a, s') => (.ok a, s')
    | .error e => (.error e, s)

theorem Performs.ok (h : m.Performs f) {s s' : σ} {a : α} (hf : f s = .ok (a, s')) :
    m.outcome s = (.ok a, s') := by rw [h s, hf]

theorem Performs.error (h : m.Performs f) {s : σ} {e : TierError} (hf : f s = .error e) :
    m.outcome s = (.error e, s) := by rw [h s, hf]

theorem Performs.congr {g : σ → Except TierError (α × σ)} (h : m.Performs f)
    (he : ∀ s, f s = g s) : m.Performs g := funext he ▸ h

/-- Changing the answer. -/
theorem Performs.map {β : Type} (h : m.Performs f) (g : α → β) :
    (g <$> m).Performs fun s => (f s).map fun x => (g x.1, x.2) := by
  intro s
  rw [outcome_map, h s]
  beta_reduce
  rcases f s with _ | ⟨a, s'⟩ <;> rfl

/-- Going on from an answer that is known already. -/
theorem Performs.answer_bind {β : Type} {r : Except TierError β} {g : β → InPlace σ α}
    {f : β → σ → Except TierError (α × σ)} (h : ∀ b, (g b).Performs (f b)) :
    (answer r >>= g).Performs fun s => r >>= (f · s) := by
  intro s
  rw [outcome_bind, outcome_answer]
  cases r with
  | error e => rfl
  | ok b => exact h b s

/-- **A failure leaves no trace.** -/
theorem Performs.eq_of_error (h : m.Performs f) {s s' : σ} {e : TierError}
    (hm : m.outcome s = (.error e, s')) : s' = s := by
  rw [h s] at hm
  split at hm
  · cases hm
  · exact (Prod.mk.inj hm).2.symm

end InPlace

open InPlace

/-! ## Tiers -/

namespace Session.Edit

/-- An edit of a tier in place. -/
def inPlace (p : Policy) : Edit → InPlace Tier Unit
  | .weight id unit => do
    match p.rebalance (← get).entries id unit with
    | [] => throw (.unknownEndpoint id)
    | entries => modify ({ · with entries })
  | .attach id => do
    if (← get).contains id then throw (.duplicateEndpoint id)
    let ids := (← get).ids ++ [id]
    modify ({ · with entries := p.evenSplit ids })
  | .detach id => do
    match p.detach (← get).entries id with
    | none => throw (.unknownEndpoint id)
    | some entries => modify ({ · with entries })

/-- **An edit in place does what the edit does.** -/
theorem performs_inPlace (p : Policy) (e : Edit) :
    (e.inPlace p).Performs fun t => (e.apply p t).map fun t' => ((), t') := by
  intro t
  cases e with
  | weight id unit =>
    simp only [apply, Tier.setWeight]
    cases h : p.rebalance t.entries id unit <;> simp [inPlace, outcome_bind, h, Except.map]
  | attach id =>
    simp only [apply, Tier.attach]
    cases h : t.contains id <;> simp [inPlace, outcome_bind, h, Except.map]
  | detach id =>
    simp only [apply, Tier.detach]
    cases h : p.detach t.entries id <;> simp [inPlace, outcome_bind, h, Except.map]

end Session.Edit

/-! ## Sessions -/

namespace Fields

/-- Edits a copy of the current tier, which is staged only when the edit has succeeded. -/
def editInPlace (p : Policy) (e : Session.Edit) : InPlace Fields Tier := do
  if (← get).state = .saving then throw .commitInFlight
  match (e.inPlace p).outcome (← get).current with
  | (.error err, _) => throw err
  | (.ok (), next) =>
    modify ({ · with state := .dirty })
    modify ({ · with staged? := some next })
    return next

/-- Drops the edits. -/
def discardInPlace : InPlace Fields Unit := do
  if (← get).state = .saving then throw .commitInFlight
  modify ({ · with staged? := none })
  modify ({ · with state := .clean })

/-- Makes the plan, and freezes the staged tier when nothing can fail any more. -/
def beginCommitInPlace (p : Policy) (settled : Bool) : InPlace Fields CommitPlan := do
  match (← get).state with
  | .clean => throw .notDirty
  | .saving => throw .commitInFlight
  | .dirty =>
    match (← get).staged? with
    | none => throw .notDirty
    | some t =>
      answer (Session.requireSettled p settled t)
      let confirmed := (← get).confirmed
      modify ({ · with state := .saving })
      return .between p confirmed t

/-- Takes out what is staged and confirms it, if there is anything. -/
def completeCommitInPlace : InPlace Fields Unit := do
  if (← get).state ≠ .saving then throw .notDirty
  let staged? := (← get).staged?
  modify ({ · with staged? := none })
  match staged? with
  | some t => modify ({ · with confirmed := t })
  | none => pure ()
  modify ({ · with state := .clean })

/-- Drops what is staged. -/
def failCommitInPlace : InPlace Fields Unit := do
  if (← get).state ≠ .saving then throw .notDirty
  modify ({ · with staged? := none })
  modify ({ · with state := .clean })

theorem performs_editInPlace (p : Policy) (e : Session.Edit) :
    (editInPlace p e).Performs fun f => (f.edit p e).map fun f' => (f'.current, f') := by
  intro f
  by_cases hsaving : f.state = .saving
  · simp [editInPlace, edit, outcome_bind, hsaving, Except.map]
  · cases h : e.apply p f.current with
    | error err =>
      have hcopy := (e.performs_inPlace p).error (s := f.current) (e := err) (by rw [h]; rfl)
      have hedit : f.edit p e = .error err := by
        rw [edit, if_neg hsaving, h]
        rfl
      simp [editInPlace, outcome_bind, hsaving, hcopy, hedit, Except.map]
    | ok t =>
      have hcopy := (e.performs_inPlace p).ok (s := f.current) (by rw [h]; rfl)
      have hedit : f.edit p e = .ok { f with staged? := some t, state := .dirty } := by
        rw [edit, if_neg hsaving, h]
        rfl
      simp only [hedit, Except.map]
      simp [editInPlace, outcome_bind, hsaving, hcopy]
      rfl

theorem performs_discardInPlace :
    discardInPlace.Performs fun f => f.discard.map fun f' => ((), f') := by
  intro f
  by_cases hsaving : f.state = .saving <;>
    simp [discardInPlace, discard, outcome_bind, hsaving, Except.map]

theorem performs_beginCommitInPlace (p : Policy) (settled : Bool) :
    (beginCommitInPlace p settled).Performs fun f => f.beginCommit p settled := by
  rintro ⟨confirmed, staged?, state⟩
  cases state with
  | clean => simp [beginCommitInPlace, beginCommit, outcome_bind]
  | saving => simp [beginCommitInPlace, beginCommit, outcome_bind]
  | dirty =>
    cases staged? with
    | none => simp [beginCommitInPlace, beginCommit, outcome_bind]
    | some t =>
      cases h : Session.requireSettled p settled t with
      | error e =>
        have hbegin : beginCommit p settled ⟨confirmed, some t, .dirty⟩ = .error e := by
          simp only [beginCommit]
          rw [h]
          rfl
        simp [beginCommitInPlace, outcome_bind, h, hbegin]
      | ok u =>
        have hbegin : beginCommit p settled ⟨confirmed, some t, .dirty⟩ =
            .ok (.between p confirmed t, ⟨confirmed, some t, .saving⟩) := by
          simp only [beginCommit]
          rw [h]
          rfl
        simp [beginCommitInPlace, outcome_bind, outcome_map, Except.map, h, hbegin]

/-- Only the state changes when a commit begins, and only from dirty. -/
theorem beginCommit_eq_ok {p : Policy} {settled : Bool} {f f' : Fields} {plan : CommitPlan}
    (h : f.beginCommit p settled = .ok (plan, f')) :
    f.state = .dirty ∧ f' = { f with state := .saving } := by
  obtain ⟨confirmed, staged?, state⟩ := f
  cases state with
  | clean => cases h
  | saving => cases h
  | dirty =>
    cases staged? with
    | none => cases h
    | some t =>
      obtain ⟨-, -, he⟩ := Except.bind_eq_ok.1 h
      cases he
      exact ⟨rfl, rfl⟩

theorem performs_completeCommitInPlace :
    completeCommitInPlace.Performs fun f => f.completeCommit.map fun f' => ((), f') := by
  rintro ⟨confirmed, staged?, state⟩
  cases staged? <;> cases state <;>
    simp [completeCommitInPlace, completeCommit, outcome_bind, Except.map]

theorem performs_failCommitInPlace :
    failCommitInPlace.Performs fun f => f.failCommit.map fun f' => ((), f') := by
  intro f
  by_cases hsaving : f.state = .saving <;>
    simp [failCommitInPlace, failCommit, outcome_bind, hsaving, Except.map]

end Fields

namespace Session.Call

/-- A call in place. -/
def inPlace (p : Policy) : Call → InPlace Fields Reply
  | .edit e => .staged <$> Fields.editInPlace p e
  | .discard => (fun _ => .done) <$> Fields.discardInPlace
  | .beginCommit settled => .plan <$> Fields.beginCommitInPlace p settled
  | .completeCommit => (fun _ => .done) <$> Fields.completeCommitInPlace
  | .failCommit => (fun _ => .done) <$> Fields.failCommitInPlace

/-- **A call in place does what the call does**, from whatever the three fields hold. -/
theorem performs_inPlace (p : Policy) (c : Call) : (c.inPlace p).Performs (·.call p c) := by
  cases c with
  | edit e =>
    exact ((Fields.performs_editInPlace p e).map Reply.staged).congr fun f => by
      rw [Fields.call]
      cases f.edit p e <;> rfl
  | discard =>
    exact (Fields.performs_discardInPlace.map fun _ => Reply.done).congr fun f => by
      rw [Fields.call]
      cases f.discard <;> rfl
  | beginCommit settled =>
    exact ((Fields.performs_beginCommitInPlace p settled).map Reply.plan).congr fun f => by
      rw [Fields.call]
      cases f.beginCommit p settled <;> rfl
  | completeCommit =>
    exact (Fields.performs_completeCommitInPlace.map fun _ => Reply.done).congr fun f => by
      rw [Fields.call]
      cases f.completeCommit <;> rfl
  | failCommit =>
    exact (Fields.performs_failCommitInPlace.map fun _ => Reply.done).congr fun f => by
      rw [Fields.call]
      cases f.failCommit <;> rfl

end Session.Call

end TierBudget
