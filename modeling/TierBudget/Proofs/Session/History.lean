import Mathlib.Data.List.DropRight
import TierBudget.Proofs.Session.Fields
/-!
# The history of a session

The log of a session lists the calls that were made on it, each with what it answered. The log alone
tells where the session stands (`Session.Recorded`): the current tier is the confirmed one with the
edits applied that succeeded since the session was last clean (`Session.editsSinceClean`), and while
a commit is in flight it is what the last begun commit saw (`Session.lastSent?`). This holds along
every run, with calls in the wrong state and with any policies (`Session.recorded_events`), so a
completed commit confirms what was sent, and nothing else changes what is confirmed
(`Session.history_is_kept`).
-/

namespace TierBudget

namespace Session

/-! ## The log -/

/-- A call that was made: with which policy, on which session, and what came of it. -/
structure Event where
  policy : Policy
  call : Call
  before : Session
  reply : Except TierError Reply
  after : Session

/-- The event of a call. -/
def event (s : Session) (p : Policy) (c : Call) : Event := ⟨p, c, s, (s.step p c).1, (s.step p c).2⟩

/-- The events of some calls, oldest first. -/
def events (s : Session) : List (Policy × Call) → List Event
  | [] => []
  | x :: calls => s.event x.1 x.2 :: (s.step x.1 x.2).2.events calls

theorem events_concat (s : Session) (calls : List (Policy × Call)) (x : Policy × Call) :
    s.events (calls ++ [x]) = s.events calls ++ [(s.after calls).event x.1 x.2] := by
  induction calls generalizing s with
  | nil => rfl
  | cons y calls ih => rw [List.cons_append, events, events, ih, after_cons, List.cons_append]

/-- The edit of an event, if it succeeded. -/
def Event.edit? (e : Event) : Option (Policy × Edit) :=
  match e.call, e.reply with
  | .edit edit, .ok _ => some (e.policy, edit)
  | _, _ => none

/-- The tier that was sent with an event, if a commit began. -/
def Event.sent? (e : Event) : Option Tier :=
  match e.call, e.reply with
  | .beginCommit _, .ok _ => some e.before.current
  | _, _ => none

/-- The edits that succeeded since the session was last clean, oldest first. -/
def editsSinceClean (log : List Event) : List (Policy × Edit) :=
  (log.rtakeWhile (·.after.state ≠ .clean)).filterMap Event.edit?

/-- What was the current tier when a commit last began. -/
def lastSent? (log : List Event) : Option Tier := (log.filterMap Event.sent?).getLast?

/-- The tier that edits lead to, each under its policy. -/
def replay (t : Tier) (edits : List (Policy × Edit)) : Except TierError Tier :=
  edits.foldlM (fun t x => x.2.apply x.1 t) t

variable {p : Policy} {s s' : Session} {c : Call} {r : Except TierError Reply} {log : List Event}

theorem editsSinceClean_concat (log : List Event) (e : Event) :
    editsSinceClean (log ++ [e]) =
      if e.after.state = .clean then [] else editsSinceClean log ++ e.edit?.toList := by
  rw [editsSinceClean, List.rtakeWhile_concat, decide_not]
  split
  · next h =>
    rw [if_neg (by simpa using h), List.filterMap_append, List.filterMap_cons, editsSinceClean]
    cases e.edit? <;> rfl
  · next h => rw [if_pos (by simpa using h), List.filterMap_nil]

theorem lastSent?_concat (log : List Event) (e : Event) :
    lastSent? (log ++ [e]) = e.sent?.or (lastSent? log) := by
  rw [lastSent?, List.filterMap_append, List.getLast?_append, List.filterMap_cons, lastSent?]
  cases e.sent? <;> rfl

theorem replay_concat (t : Tier) (edits : List (Policy × Edit)) (x : Policy × Edit) :
    replay t (edits ++ [x]) = replay t edits >>= x.2.apply x.1 := by
  rw [replay, List.foldlM_append, replay]
  simp

/-! ## What the log tells -/

/-- The log tells where the session stands. -/
structure Recorded (log : List Event) (s : Session) : Prop where
  replayed : replay s.confirmed (editsSinceClean log) = .ok s.current
  sent : s.IsSaving → lastSent? log = some s.current

/-- A session that is clean again has nothing to tell. -/
theorem recorded_clean (log : List Event) {e : Event} (h : e.after.state = .clean) :
    Recorded (log ++ [e]) e.after := by
  refine ⟨?_, fun hsaving => by rw [IsSaving, h] at hsaving; cases hsaving⟩
  rw [editsSinceClean_concat, if_pos h, current_of_clean h]
  rfl

/-- A refused call leaves what the log tells. -/
theorem Recorded.refuse (h : Recorded log s) (p : Policy) (c : Call) (e : TierError) :
    Recorded (log ++ [⟨p, c, s, .error e, s⟩]) s := by
  by_cases hclean : s.state = .clean
  · exact recorded_clean log hclean
  · have hedit : Event.edit? ⟨p, c, s, .error e, s⟩ = none := by cases c <;> rfl
    have hsent : Event.sent? ⟨p, c, s, .error e, s⟩ = none := by cases c <;> rfl
    refine ⟨?_, fun hsaving => ?_⟩
    · rw [editsSinceClean_concat, if_neg hclean, hedit, Option.toList_none, List.append_nil]
      exact h.replayed
    · rw [lastSent?_concat, hsent, Option.none_or, h.sent hsaving]

/-- **Every move leaves a log that tells where the session stands.** -/
theorem Move.recorded (h : Move p s c r s') (hs : Recorded log s) :
    Recorded (log ++ [⟨p, c, s, r, s'⟩]) s' := by
  cases h with
  | refuse c e => exact hs.refuse p c e
  | @edit e t hfree ht =>
    -- The new edit comes last, and applies to what the earlier ones lead to.
    refine ⟨?_, nofun⟩
    rw [editsSinceClean_concat, if_neg nofun]
    change replay s.confirmed (_ ++ [(p, e)]) = .ok t
    rw [replay_concat, hs.replayed]
    exact ht
  | @begin settled t hdirty hset =>
    have hcurrent := current_of_dirty hdirty
    refine ⟨?_, fun _ => ?_⟩
    · rw [editsSinceClean_concat, if_neg nofun]
      change replay s.confirmed (_ ++ []) = .ok t
      rw [List.append_nil, hs.replayed, hcurrent]
    · rw [lastSent?_concat]
      exact congrArg some hcurrent
  | discard | complete | fail => exact recorded_clean log rfl

/-- **The log of every run tells where the session stands.** -/
theorem recorded_events (confirmed : Tier) (calls : List (Policy × Call)) :
    Recorded ((new confirmed).events calls) ((new confirmed).after calls) := by
  induction calls using List.reverseRecOn with
  | nil => exact ⟨rfl, nofun⟩
  | append_singleton calls x ih =>
    rw [events_concat, after_concat]
    exact (move_step _ x.1 x.2).recorded ih

/-! ## What a call does to what is confirmed -/

/-- **Only a completed commit changes what is confirmed.** -/
theorem Move.confirmed_eq (h : Move p s c r s') :
    s'.confirmed = s.confirmed ∨ c = .completeCommit ∧ s.IsSaving := by
  cases h with
  | refuse | edit | discard | begin | fail => exact .inl rfl
  | complete hsaving => exact .inr ⟨rfl, isSaving_iff.2 ⟨_, hsaving⟩⟩

theorem Move.tierId_eq {id : String} {plan : CommitPlan} (h : Move p s c (.ok (.plan plan)) s')
    (hs : s.HasId id) : plan.tierId = id := by
  cases h with
  | begin settled hdirty hset => exact hs.staged _ (staged?_eq_of_dirty hdirty)

theorem step_completeCommit (s : Session) (p : Policy) :
    s.step p .completeCommit =
      if s.IsSaving then (.ok .done, new s.current) else (.error .notDirty, s) := by
  split
  · next h =>
    obtain ⟨t, ht⟩ := isSaving_iff.1 h
    rw [step, call, completeCommit_of_saving ht, current_of_saving ht]
    rfl
  · next h =>
    rw [step, call, completeCommit_of_not_isSaving h]
    rfl

theorem step_discard (s : Session) (p : Policy) :
    s.step p .discard =
      if s.IsSaving then (.error .commitInFlight, s) else (.ok .done, new s.confirmed) := by
  split
  · next h =>
    rw [step, call, discard_of_isSaving h]
    rfl
  · next h =>
    rw [step, call, discard_of_not_isSaving h]
    rfl

theorem step_failCommit (s : Session) (p : Policy) :
    s.step p .failCommit =
      if s.IsSaving then (.ok .done, new s.confirmed) else (.error .notDirty, s) := by
  split
  · next h =>
    obtain ⟨t, ht⟩ := isSaving_iff.1 h
    rw [step, call, failCommit_of_saving ht]
    rfl
  · next h =>
    rw [step, call, failCommit_of_not_isSaving h]
    rfl

theorem isSome_staged?_iff : s.staged?.isSome ↔ s.state = .dirty ∨ s.state = .saving := by
  unfold staged? state
  split <;> simp

/-- **The history of a session is kept.** A session starts from any tier, and any calls are made in
any order and with any policies. Kept in three fields, it has a staged tier exactly if it is dirty
or saving. The current tier is the confirmed one with the edits applied that succeeded since the
session was last clean. What is confirmed changes only when a commit completes, which needs one in
flight and confirms what was current when it began; discarding and a failed commit go back to what
is confirmed. All tiers and plans keep the id. -/
theorem history_is_kept (confirmed : Tier) (calls : List (Policy × Call)) :
    let s := (new confirmed).after calls
    let f := (Fields.new confirmed).after calls
    let log := (new confirmed).events calls
    (f = s.fields ∧ ∀ p c, f.step p c = ((s.step p c).1, (s.step p c).2.fields)) ∧
    (f.staged?.isSome ↔ f.state = .dirty ∨ f.state = .saving) ∧
    replay s.confirmed (editsSinceClean log) = .ok s.current ∧
    (∀ p c, (s.step p c).2.confirmed ≠ s.confirmed →
      c = .completeCommit ∧ (s.step p c).1 = .ok .done) ∧
    (s.IsSaving → lastSent? log = some s.current) ∧
    (∀ p, s.step p .completeCommit =
      if s.IsSaving then (.ok .done, new s.current) else (.error .notDirty, s)) ∧
    (∀ p, s.step p .discard =
      if s.IsSaving then (.error .commitInFlight, s) else (.ok .done, new s.confirmed)) ∧
    (∀ p, s.step p .failCommit =
      if s.IsSaving then (.ok .done, new s.confirmed) else (.error .notDirty, s)) ∧
    s.HasId confirmed.id ∧
    ∀ p c plan, (s.step p c).1 = .ok (.plan plan) → plan.tierId = confirmed.id := by
  intro s f log
  have hf : f = s.fields := after_fields (new confirmed) calls
  have hlog : Recorded log s := recorded_events confirmed calls
  have hid : s.HasId confirmed.id := (hasId_clean rfl : (new confirmed).HasId _).after calls
  refine ⟨⟨hf, fun p c => hf ▸ step_fields p s c⟩, hf ▸ isSome_staged?_iff, hlog.replayed,
    fun p c hne => ?_, hlog.sent, step_completeCommit s, step_discard s, step_failCommit s, hid,
    fun p c plan hplan => ?_⟩
  · rcases (move_step s p c).confirmed_eq with heq | ⟨rfl, hsaving⟩
    · exact absurd heq hne
    · rw [step_completeCommit, if_pos hsaving]
      exact ⟨rfl, rfl⟩
  · have hmove := move_step s p c
    rw [hplan] at hmove
    exact hmove.tierId_eq hid

/-- Of three edits one is refused; the tier with the other two is sent, and confirmed. -/
theorem history_is_kept_in_flight :
    let confirmed : Tier := ⟨"t", [⟨"a", 0.5⟩, ⟨"b", 0.25⟩, ⟨"c", 0.25⟩]⟩
    let s := (new confirmed).after
      [(default, .edit (.weight "a" 0.25)), (default, .edit (.attach "b")),
        (default, .edit (.attach "d")), (default, .beginCommit true), (default, .discard)]
    s.state = .saving ∧
      replay confirmed [(default, .weight "a" 0.25), (default, .attach "d")] = .ok s.current ∧
      s.step default .completeCommit = (.ok .done, new s.current) := by
  let confirmed : Tier := ⟨"t", [⟨"a", 0.5⟩, ⟨"b", 0.25⟩, ⟨"c", 0.25⟩]⟩
  let calls : List (Policy × Call) :=
    [(default, .edit (.weight "a" 0.25)), (default, .edit (.attach "b")),
      (default, .edit (.attach "d")), (default, .beginCommit true), (default, .discard)]
  have hsaving : ((new confirmed).after calls).state = .saving := by decide +kernel
  have hedits : editsSinceClean ((new confirmed).events calls) =
      [(default, .weight "a" 0.25), (default, .attach "d")] := by decide +kernel
  have hconfirmed : ((new confirmed).after calls).confirmed = confirmed := by decide +kernel
  obtain ⟨-, -, hreplay, -, -, hcomplete, -⟩ := history_is_kept confirmed calls
  rw [hedits, hconfirmed] at hreplay
  exact ⟨hsaving, hreplay, (hcomplete default).trans (if_pos hsaving)⟩

end Session

end TierBudget
