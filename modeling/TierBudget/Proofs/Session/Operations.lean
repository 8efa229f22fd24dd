import Mathlib.Tactic.Common
import TierBudget.Session
/-!
# What the operations of a session do

When an operation succeeds, and what it then leaves (`Session.edit_eq_ok`,
`Session.beginCommit_eq_ok` and the others): edits and discards are refused only while a commit is
in flight, a commit begins from a dirty session and ends in a saving one.
-/

namespace TierBudget

variable {ε α β : Type}

theorem Except.bind_eq_ok {x : Except ε α} {f : α → Except ε β} {b : β} :
    (x >>= f) = .ok b ↔ ∃ a, x = .ok a ∧ f a = .ok b := by
  cases x with
  | error e => exact ⟨fun h => (by cases h), fun ⟨_, h, _⟩ => (by cases h)⟩
  | ok a => exact ⟨fun h => ⟨a, rfl, h⟩, fun ⟨_, h, hf⟩ => (by cases h; exact hf)⟩

namespace Session

variable {p : Policy} {s s' : Session} {id : String} {t : Tier}

/-! ## The tiers of a session -/

theorem staged?_eq_of_dirty (h : s.stage = .dirty t) : s.staged? = some t := by simp [staged?, h]

theorem staged?_eq_of_saving (h : s.stage = .saving t) : s.staged? = some t := by simp [staged?, h]

theorem staged?_eq_none (h : s.state = .clean) : s.staged? = none := by
  unfold state at h
  split at h <;> simp_all [staged?]

theorem current_of_clean (h : s.state = .clean) : s.current = s.confirmed := by
  rw [current, staged?_eq_none h, Option.getD_none]

theorem current_of_dirty (h : s.stage = .dirty t) : s.current = t := by
  rw [current, staged?_eq_of_dirty h, Option.getD_some]

theorem current_of_saving (h : s.stage = .saving t) : s.current = t := by
  rw [current, staged?_eq_of_saving h, Option.getD_some]

/-- What the confirmed and the staged tier have in common holds of the current one. -/
theorem current_induction {P : Tier → Prop} (hconfirmed : P s.confirmed)
    (hstaged : ∀ t, s.staged? = some t → P t) : P s.current := by
  unfold current
  cases hs : s.staged? with
  | none => exact hconfirmed
  | some t => exact hstaged t hs

/-- Both tiers of a session have the id. -/
structure HasId (s : Session) (id : String) : Prop where
  confirmed : s.confirmed.id = id
  staged : ∀ t, s.staged? = some t → t.id = id

theorem hasId_clean (h : t.id = id) : HasId ⟨t, .clean⟩ id := ⟨h, fun _ ht => by cases ht⟩

theorem HasId.current (h : s.HasId id) : s.current.id = id :=
  current_induction h.confirmed h.staged

/-! ## Operations -/

/-- A commit of the session waits for the store. -/
def IsSaving (s : Session) : Prop := s.state = .saving

instance : DecidablePred IsSaving := fun _ => inferInstanceAs (Decidable (_ = _))

@[simp] theorem not_isSaving_clean (confirmed : Tier) : ¬ IsSaving ⟨confirmed, .clean⟩ := nofun

theorem isSaving_iff : s.IsSaving ↔ ∃ t, s.stage = .saving t := by
  unfold IsSaving state
  split <;> simp_all

theorem edit_of_isSaving (h : s.IsSaving) (e : Edit) : s.edit p e = .error .commitInFlight := by
  obtain ⟨t, ht⟩ := isSaving_iff.1 h
  simp [edit, ht]

theorem edit_eq_ok (h : ¬ s.IsSaving) {e : Edit} :
    s.edit p e = .ok s' ↔ ∃ t, e.apply p s.current = .ok t ∧ s' = { s with stage := .dirty t } := by
  have hedit : s.edit p e = do return { s with stage := .dirty (← e.apply p s.current) } := by
    unfold edit
    split
    · next t ht => exact absurd (isSaving_iff.2 ⟨t, ht⟩) h
    · rfl
  rw [hedit, Except.bind_eq_ok]
  exact exists_congr fun t => and_congr_right fun _ =>
    ⟨fun h => (Except.ok.inj h).symm, fun h => h ▸ rfl⟩

theorem discard_of_isSaving (h : s.IsSaving) : s.discard = .error .commitInFlight := by
  obtain ⟨t, ht⟩ := isSaving_iff.1 h
  simp [discard, ht]

theorem discard_of_not_isSaving (h : ¬ s.IsSaving) :
    s.discard = .ok { s with stage := .clean } := by
  unfold discard
  split
  · next t ht => exact absurd (isSaving_iff.2 ⟨t, ht⟩) h
  · rfl

theorem beginCommit_of_isSaving (h : s.IsSaving) (settled : Bool) :
    s.beginCommit p settled = .error .commitInFlight := by
  obtain ⟨t, ht⟩ := isSaving_iff.1 h
  simp [beginCommit, ht]

theorem beginCommit_eq_ok {settled : Bool} {plan : CommitPlan} :
    s.beginCommit p settled = .ok (plan, s') ↔ ∃ t, s.stage = .dirty t ∧
      requireSettled p settled t = .ok () ∧ plan = .between p s.confirmed t ∧
      s' = { s with stage := .saving t } := by
  unfold beginCommit
  cases hs : s.stage with
  | clean => simp
  | saving t => simp
  | dirty t =>
    cases hr : requireSettled p settled t with
    | error e => simp [hr, bind, Except.bind]
    | ok u => simp [hr, bind, Except.bind, pure, Except.pure, eq_comm]

theorem completeCommit_of_saving {t : Tier} (h : s.stage = .saving t) :
    s.completeCommit = .ok ⟨t, .clean⟩ := by simp [completeCommit, h]

theorem failCommit_of_saving {t : Tier} (h : s.stage = .saving t) :
    s.failCommit = .ok { s with stage := .clean } := by simp [failCommit, h]

theorem completeCommit_of_not_isSaving (h : ¬ s.IsSaving) :
    s.completeCommit = .error .notDirty := by
  unfold completeCommit
  split
  · next t ht => exact absurd (isSaving_iff.2 ⟨t, ht⟩) h
  · rfl

theorem failCommit_of_not_isSaving (h : ¬ s.IsSaving) : s.failCommit = .error .notDirty := by
  unfold failCommit
  split
  · next t ht => exact absurd (isSaving_iff.2 ⟨t, ht⟩) h
  · rfl

end Session

end TierBudget
