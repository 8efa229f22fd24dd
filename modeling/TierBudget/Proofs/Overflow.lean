import TierBudget.CommandLine.Run
import TierBudget.Proofs.Coordinator.Isolation
import TierBudget.Proofs.Points
import TierBudget.Proofs.Session.Gate
/-!
# Sums of counts stay in range

Counts are words of 32 bits, a scale may be as large as the largest word, and every addition of
counts is checked. Of all errors that an operation can end in, one says that such a check failed;
here no step of a board ends in it (`Coordinator.step_inRange`), and no command line
(`CommandLine.respondWith_ne_overflowed`). The sum that takes an argument is the one that a commit
makes of the counts that the units encode to one by one: it stays in range because whatever is
staged on a board is on the grid of the board's own scale (`Coordinator.stagedOnGrid_after`),
wherever the tier it started from came from.
-/

namespace TierBudget

open Apportionment

/-! ## Errors -/

/-- The outcome is not that a sum of counts left its range. -/
def InRange {α : Type} (r : Except TierError α) : Prop := r ≠ .error .countOverflow

namespace InRange

variable {α β : Type} {r : Except TierError α} {f : α → Except TierError β}

theorem ok (a : α) : InRange (.ok a) := nofun

theorem error {e : TierError} (h : e ≠ .countOverflow) : InRange (.error e : Except TierError α) :=
  fun he => h (Except.error.inj he)

theorem bind (hr : InRange r) (hf : ∀ a, r = .ok a → InRange (f a)) : InRange (r >>= f) := by
  cases r with
  | error e => exact fun he => hr (by rw [Except.error.inj he])
  | ok a => exact hf a rfl

end InRange

theorem Session.Edit.apply_inRange (p : Policy) (t : Tier) (e : Edit) : InRange (e.apply p t) := by
  cases e with
  | weight id unit =>
    rw [apply, Tier.setWeight]
    split
    · exact .error nofun
    · exact .ok _
  | attach id =>
    rw [apply, Tier.attach]
    split
    · exact .error nofun
    · exact .ok _
  | detach id =>
    rw [apply, Tier.detach]
    split
    · exact .ok _
    · exact .error nofun

namespace Session

variable {p : Policy} {s : Session}

theorem edit_inRange (p : Policy) (s : Session) (e : Edit) : InRange (s.edit p e) := by
  unfold edit
  split
  · exact .error nofun
  · exact (e.apply_inRange p _).bind fun _ _ => .ok _

theorem discard_inRange (s : Session) : InRange s.discard := by
  unfold discard
  split
  · exact .error nofun
  · exact .ok _

theorem completeCommit_inRange (s : Session) : InRange s.completeCommit := by
  unfold completeCommit
  split
  · exact .ok _
  · exact .error nofun

theorem failCommit_inRange (s : Session) : InRange s.failCommit := by
  unfold failCommit
  split
  · exact .ok _
  · exact .error nofun

/-- The counts of a staged tier on the grid add up to the scale, so the gate has an answer. -/
theorem requireSettled_inRange {t : Tier} (h : t.OnGrid p) (settled : Bool) :
    InRange (requireSettled p settled t) := by
  obtain ⟨b, hb⟩ := h.exists_isSettled?
  unfold requireSettled
  split
  · rw [hb]
    cases b
    · exact .error nofun
    · exact .ok _
  · exact .ok _

theorem beginCommit_inRange (h : s.StagedOnGrid p) (settled : Bool) :
    InRange (s.beginCommit p settled) := by
  unfold beginCommit
  split
  · exact .error nofun
  · exact .error nofun
  · next t ht =>
    exact (requireSettled_inRange (h t (staged?_eq_of_dirty ht)) settled).bind fun _ _ => .ok _

end Session

/-! ## Boards -/

namespace Board

variable {b : Board}

theorem modifySession_inRange {f : Session → Except TierError Session} (hf : ∀ s, InRange (f s))
    (id : String) : InRange (b.modifySession id f) := by
  unfold modifySession
  split
  · exact .error nofun
  · exact (hf _).bind fun _ _ => .ok _

theorem insert_inRange (b : Board) (t : Tier) : InRange (b.insert t) := by
  unfold insert
  split
  · exact .error nofun
  · exact .ok _

theorem load_inRange (b : Board) (store : Store) (id : String) : InRange (b.load store id) := by
  have hread : InRange ((store.load id).mapError TierError.store) := by
    cases store.load id with
    | error e => exact .error nofun
    | ok stored => exact .ok _
  exact hread.bind fun _ _ => (b.insert_inRange _).bind fun _ _ => .ok _

theorem finishCommit_inRange (b : Board) (id : String) (v : Verdict) :
    InRange (b.finishCommit id v) := by
  cases v with
  | accepted => exact modifySession_inRange Session.completeCommit_inRange id
  | refused e => exact modifySession_inRange Session.failCommit_inRange id

/-- Whatever is staged on the board is on the grid of its scale. -/
def StagedOnGrid (b : Board) : Prop := ∀ id s, b.session? id = some s → s.StagedOnGrid b.policy

theorem startCommit_inRange (h : b.StagedOnGrid) (id : String) : InRange (b.startCommit id) := by
  unfold startCommit
  split
  · exact .error nofun
  · next s hs => exact (Session.beginCommit_inRange (h id s hs) _).bind fun _ _ => .ok _

end Board

namespace Coordinator

variable {c c' : Coordinator} {s : Step} {r : Except TierError Answer}

/-- **Every move keeps what is staged on the grid**, whatever tiers are inserted or loaded. -/
theorem Move.stagedOnGrid (h : Move c s r c') (hc : c.board.StagedOnGrid) :
    c'.board.StagedOnGrid := by
  intro id now hnow
  by_cases hid : s.tierId? = some id
  · cases h with
    | fail | idle | stray => exact hc id now hnow
    | insert _ hfree =>
      cases hid
      obtain rfl := Board.eq_of_session?_setSession hnow
      exact Session.stagedOnGrid_clean _ _
    | load _ hl hfree =>
      cases hid
      obtain rfl := Board.eq_of_session?_setSession hnow
      exact Session.stagedOnGrid_clean _ _
    | edit _ hs hfree ht =>
      cases hid
      obtain rfl := Board.eq_of_session?_setSession hnow
      rintro _ ⟨⟩
      exact Session.Edit.onGrid_apply ht
    | discard _ hs hfree =>
      cases hid
      obtain rfl := Board.eq_of_session?_setSession hnow
      exact Session.stagedOnGrid_clean _ _
    | start _ hs hdirty hset =>
      cases hid
      obtain rfl := Board.eq_of_session?_setSession hnow
      rintro _ ⟨⟩
      exact hc _ _ hs _ (Session.staged?_eq_of_dirty hdirty)
    | accept _ hp hs ht =>
      cases hid
      obtain rfl := Board.eq_of_session?_setSession hnow
      exact Session.stagedOnGrid_clean _ _
    | refuse _ hp hs ht =>
      cases hid
      obtain rfl := Board.eq_of_session?_setSession hnow
      exact Session.stagedOnGrid_clean _ _
    | seed => cases hid
    | put => cases hid
    | replaceStore => cases hid
  · rw [(h.frame hid).1] at hnow
    rw [h.policy_eq]
    exact hc id now hnow

theorem stagedOnGrid_after (p : Policy) (requireSettled : Bool) (store : Store)
    (steps : List Step) : ((fresh p requireSettled store).after steps).board.StagedOnGrid :=
  after_induction (P := fun c => c.board.StagedOnGrid) (fun _ _ hs => by cases hs)
    fun _ _ _ _ _ hc h => h.stagedOnGrid hc

theorem settle_inRange {x : Except TierError (Answer × Coordinator)} (h : InRange x) :
    InRange (c.settle x).1 := by
  cases x with
  | error e => exact fun he => h (by rw [Except.error.inj he])
  | ok a => exact .ok _

theorem start_inRange (h : c.board.StagedOnGrid) (id : String) : InRange (c.start id) :=
  (Board.startCommit_inRange h id).bind fun _ _ => .ok _

theorem finish_inRange (c : Coordinator) (id : String) (plan : CommitPlan) (v : Verdict) :
    InRange (c.finish id plan v).1 := by
  have hboard := c.board.finishCommit_inRange id v
  unfold finish
  dsimp only
  split
  · exact .ok _
  · exact .error nofun
  · exact .error nofun
  · next e herror => exact .error fun he => hboard (by rw [herror, he])

/-- **No step ends in an overflow**, from any state whose staged tiers are on the grid. -/
theorem step_inRange (hc : c.board.StagedOnGrid) (s : Step) : InRange (c.step s).1 := by
  cases s with
  | insert t => exact settle_inRange ((c.board.insert_inRange t).bind fun _ _ => .ok _)
  | load id => exact settle_inRange ((c.board.load_inRange c.store id).bind fun _ _ => .ok _)
  | edit id e =>
    refine settle_inRange ((Board.modifySession_inRange
      (fun s => s.edit_inRange c.board.policy e) id).bind fun b _ => ?_)
    split
    · exact .ok _
    · exact .error nofun
  | discard id =>
    exact settle_inRange ((Board.modifySession_inRange Session.discard_inRange id).bind
      fun _ _ => .ok _)
  | startCommit id => exact settle_inRange ((start_inRange hc id).bind fun _ _ => .ok _)
  | finishCommit id v =>
    rw [step]
    split
    · exact .ok _
    · exact c.finish_inRange id _ v
  | seed id entries => exact .ok _
  | put plan => exact .ok _
  | replaceStore store => exact .ok _

/-- Nor does a commit that the store answers at once. -/
theorem commit_inRange (hc : c.board.StagedOnGrid) (id : String) (v : Verdict) :
    InRange (c.commit id v).1 := by
  have hstart := start_inRange hc id
  unfold commit
  split
  · next e he => exact .error fun h => hstart (by rw [he, h])
  · next plan next _ => exact next.finish_inRange id plan v

end Coordinator

/-! ## Reports and command lines -/

/-- A report has the counts of its entries. -/
theorem Report.map_count_ofEntries (p : Policy) (entries : List (Entry String)) :
    (ofEntries p entries).rows.map ReportRow.count = (p.toFixed entries).map FixedEntry.count := by
  have hlen := p.length_toFixed entries
  refine List.ext_getElem ?_ fun i h₁ h₂ => ?_
  · simp [ofEntries]
  · simp [ofEntries]

/-- **The total of a report is the scale**, or zero if it has no rows. -/
theorem Report.total?_ofEntries (p : Policy) (entries : List (Entry String)) :
    (ofEntries p entries).total? = some (if entries = [] then 0 else p.scale.size) := by
  rw [total?, map_count_ofEntries]
  split
  · next hnil =>
    subst hnil
    rfl
  · next hne =>
    have hsum : (((p.toFixed entries).map FixedEntry.count).map UInt32.toNat).sum =
        p.scale.size.toNat := by
      rw [List.map_map]
      exact (p.isBudget_toFixed hne).sum_eq
    obtain ⟨c, hc, hnat⟩ := Count.exists_sum? (hsum.trans_lt p.scale.size.toNat_lt)
    rw [hc, UInt32.toNat_inj.1 (hnat.trans hsum)]

namespace CommandLine

theorem printReport_ofEntries (title : String) (json : Bool) (p : Policy)
    (entries : List (Entry String)) :
    printReport title json (.ofEntries p entries) ≠ .overflowed := by
  unfold printReport
  split
  · exact nofun
  · rw [Report.total?_ofEntries]
    exact nofun

/-- What is printed of a computation does not overflow if none of its results does. -/
theorem ofExcept_ne_overflowed {α : Type} {print : α → Outcome} {r : Except Failure α}
    (h : ∀ a, r = .ok a → print a ≠ .overflowed) : Outcome.ofExcept print r ≠ .overflowed := by
  cases r with
  | error e => exact nofun
  | ok a => exact h a rfl

theorem printSimulation_ne_overflowed (p : Policy) (t : Tier) (path : String) (requests : Count)
    (g : Generator) (seed : UInt64) :
    printSimulation p t path requests g seed ≠ .overflowed := by
  obtain ⟨k, hk, -⟩ := Picker.exists_ofTier? p t
  unfold printSimulation
  rw [hk]
  dsimp only
  split <;> exact nofun

theorem Command.run_ne_overflowed (s : Settings) (files : Files) (g : Generator)
    (entropy : UInt64) (command : Command) : command.run s files g entropy ≠ .overflowed := by
  cases command with
  | normalize input json =>
    refine ofExcept_ne_overflowed fun r hr => ?_
    obtain ⟨raw, -, h⟩ := Except.bind_eq_ok.1 hr
    cases h
    exact printReport_ofEntries _ _ _ _
  | rebalance input target unit json =>
    refine ofExcept_ne_overflowed fun r hr => ?_
    obtain ⟨raw, -, h⟩ := Except.bind_eq_ok.1 hr
    dsimp only at h
    split at h
    · cases h
    · cases h
      exact printReport_ofEntries _ _ _ _
  | split ids json => exact printReport_ofEntries _ _ _ _
  | detach input target json =>
    refine ofExcept_ne_overflowed fun r hr => ?_
    obtain ⟨raw, -, h⟩ := Except.bind_eq_ok.1 hr
    split at h
    · cases h
    · cases h
      exact printReport_ofEntries _ _ _ _
  | simulate input requests seed =>
    exact ofExcept_ne_overflowed fun raw _ => printSimulation_ne_overflowed _ _ _ _ _ _
  | info => exact nofun

/-- **No command line ends in an overflow**, whatever the generator. -/
theorem respondWith_ne_overflowed (g : Generator) (words : List String) (vars : List Variable)
    (files : Files) (entropy : UInt64) :
    respondWith g words vars files entropy ≠ .overflowed := by
  unfold respondWith
  split
  · exact nofun
  · exact nofun
  · exact nofun
  · next i _ =>
    unfold Invocation.run
    split
    · exact nofun
    · exact i.command.run_ne_overflowed _ _ _ _

end CommandLine

namespace Coordinator

/-- **No sum of counts leaves its range.** A board of any scale starts empty; tiers from anywhere
are inserted, loaded, edited and committed in any order. Then no next step and no whole commit ends
in an overflow, the check of a staged tier and the pickers of all tiers have an answer, the loops
that apportion counts never leave their words, and neither the total of a report nor any command
line overflows, whatever numbers a simulation draws. -/
theorem counts_stay_in_range (p : Policy) (requireSettled : Bool) (store : Store)
    (steps : List Step) :
    let c := (fresh p requireSettled store).after steps
    (∀ s, InRange (c.step s).1) ∧
    (∀ id v, InRange (c.commit id v).1) ∧
    (∀ id s, c.board.session? id = some s →
      (∀ t, s.staged? = some t → ∃ settled, t.isSettled? p.scale = some settled) ∧
      ∀ t ∈ [s.current, s.confirmed], ∃ k, Picker.ofTier? p t = some k) ∧
    (∀ scale shares, apportionStepwise? scale shares = some (apportion scale shares)) ∧
    (∀ (q : Policy) (entries : List (Entry String)), (Report.ofEntries q entries).total? =
      some (if entries = [] then 0 else q.scale.size)) ∧
    ∀ g words vars files entropy,
      CommandLine.respondWith g words vars files entropy ≠ .overflowed := by
  intro c
  have hgrid : c.board.StagedOnGrid := stagedOnGrid_after p requireSettled store steps
  have hpolicy : c.board.policy = p := policy_after _ steps
  refine ⟨step_inRange hgrid, commit_inRange hgrid, fun id s hs => ⟨fun t ht => ?_, fun t _ => ?_⟩,
    apportionStepwise?_eq, Report.total?_ofEntries, CommandLine.respondWith_ne_overflowed⟩
  · have ht := hgrid id s hs t ht
    rw [hpolicy] at ht
    exact ht.exists_isSettled?
  · obtain ⟨k, hk, -⟩ := Picker.exists_ofTier? p t
    exact ⟨k, hk⟩

/-- At the largest scale a tier whose units add up to more than the whole is edited and
committed. -/
theorem counts_stay_in_range_largest :
    let p : Policy := ⟨⟨4294967295, by decide⟩, Policy.defaultEpsilon⟩
    let c := (fresh p true default).after
      [.insert ⟨"t", [⟨"a", 0.7⟩, ⟨"b", 0.6⟩, ⟨"c", 0.1⟩]⟩, .edit "t" (.weight "a" 0.3)]
    (∃ s t, c.board.session? "t" = some s ∧ s.staged? = some t ∧
      ∃ settled, t.isSettled? p.scale = some settled) ∧
    InRange (c.step (.startCommit "t")).1 := by
  intro p c
  obtain ⟨hstep, -, hsession, -⟩ := counts_stay_in_range p true default
    [.insert ⟨"t", [⟨"a", 0.7⟩, ⟨"b", 0.6⟩, ⟨"c", 0.1⟩]⟩, .edit "t" (.weight "a" 0.3)]
  have hstaged : ((c.board.session? "t").bind Session.staged?).isSome = true := by decide +kernel
  obtain ⟨t, ht⟩ := Option.isSome_iff_exists.1 hstaged
  obtain ⟨s, hs, ht⟩ := Option.bind_eq_some_iff.1 ht
  exact ⟨⟨s, t, hs, ht, (hsession "t" s hs).1 t ht⟩, hstep _⟩

end Coordinator

end TierBudget
