import TierBudget.Proofs.Settled
/-!
# Endpoints as a list of ids

Under its weights a tier is a list of ids: attaching appends, detaching erases, setting a weight
keeps the list, and which edits fail is decided by the list alone (`Session.Edit.onIds`). One edit
agrees with this model in what it does and in how it fails (`Session.Edit.map_ids_apply`), so many
do (`attempts_map`), under a new policy every time. What the weights add is that a lone endpoint
always holds the whole (`Tier.OnGrid.unit_lone`).
-/

namespace TierBudget

/-! ## Attempts -/

section

variable {σ τ α ε : Type}

/-- Steps one after the other, passing over those that fail: why they failed, where they did, and the
state after them. -/
def attempts (step : σ → α → Except ε σ) (s : σ) : List α → List (Option ε) × σ
  | [] => ([], s)
  | a :: as =>
    match step s a with
    | .ok s' => ((none :: (attempts step s' as).1), (attempts step s' as).2)
    | .error e => ((some e :: (attempts step s as).1), (attempts step s as).2)

/-- What every step keeps is kept by all attempts. -/
theorem attempts_induction {step : σ → α → Except ε σ} {P : σ → Prop}
    (h : ∀ s a s', P s → step s a = .ok s' → P s') {s : σ} (hs : P s) (as : List α) :
    P (attempts step s as).2 := by
  induction as generalizing s with
  | nil => exact hs
  | cons a as ih =>
    rw [attempts]
    split
    · next s' hstep => exact ih (h s a s' hs hstep)
    · exact ih hs

/-- Where one step is like another seen through a map, so are all attempts, failures included. -/
theorem attempts_map {step : σ → α → Except ε σ} {step' : τ → α → Except ε τ} {f : σ → τ}
    (h : ∀ s a, (step s a).map f = step' (f s) a) (s : σ) (as : List α) :
    attempts step' (f s) as = ((attempts step s as).1, f (attempts step s as).2) := by
  induction as generalizing s with
  | nil => rfl
  | cons a as ih =>
    have hstep := h s a
    rw [attempts, attempts, ← hstep]
    cases step s a with
    | ok s' => simp only [Except.map, ih]
    | error e => simp only [Except.map, ih]

end

/-! ## One edit -/

namespace Tier

variable {p : Policy} {t t' : Tier} {id : String}

theorem attach_eq_error_iff {e : TierError} :
    t.attach p id = .error e ↔ id ∈ t.ids ∧ e = .duplicateEndpoint id := by
  by_cases h : id ∈ t.ids <;> simp [attach, contains, h, eq_comm]

theorem detach_eq_error_iff {e : TierError} :
    t.detach p id = .error e ↔ id ∉ t.ids ∧ e = .unknownEndpoint id := by
  unfold detach
  split
  · next entries hentries =>
    have hmem : ¬ id ∉ t.ids := fun hno => by
      rw [p.detach_eq_none_iff.2 hno] at hentries
      cases hentries
    simp [hmem]
  · next hnone => simp [show id ∉ t.ids from p.detach_eq_none_iff.1 hnone, eq_comm]

theorem setWeight_eq_error_iff {unit : Float} {e : TierError} :
    t.setWeight p id unit = .error e ↔ id ∉ t.ids ∧ e = .unknownEndpoint id := by
  unfold setWeight
  split
  · next hnil => simp [show id ∉ t.ids from (p.rebalance_eq_nil_iff unit).1 hnil, eq_comm]
  · next entries hne =>
    have hmem : ¬ id ∉ t.ids := fun hno => hne ((p.rebalance_eq_nil_iff unit).2 hno)
    simp [hmem]

/-- Each endpoint has the weight of the one entry that bears its id. -/
theorem unitOf?_eq_some_iff (h : t.ids.Nodup) {unit : Float} :
    t.unitOf? id = some unit ↔ ⟨id, unit⟩ ∈ t.entries := by
  rw [unitOf?, Option.map_eq_some_iff]
  constructor
  · rintro ⟨e, he, rfl⟩
    have hid : e.id = id := by simpa using List.find?_some he
    rw [← hid]
    exact List.mem_of_find?_eq_some he
  · intro hmem
    obtain ⟨e, he⟩ : ∃ e, t.entries.find? (·.id = id) = some e :=
      Option.isSome_iff_exists.1 (List.find?_isSome.2 ⟨_, hmem, by simp⟩)
    have hid : e.id = id := by simpa using List.find?_some he
    have heq : e = ⟨id, unit⟩ :=
      List.inj_on_of_nodup_map h (List.mem_of_find?_eq_some he) hmem hid
    exact ⟨e, he, by rw [heq]⟩

/-- A lone endpoint on the grid of any scale holds exactly the whole. -/
theorem OnGrid.unit_lone (h : t.OnGrid p) {e : Entry String} (he : t.entries = [e]) :
    e.unit = 1 := by
  obtain ⟨fixed, hb, hunits⟩ := h (by simp [he])
  rw [ids, he, List.map_singleton] at hb
  rw [he, hb.eq_lone, Policy.ofFixed, List.map_singleton, p.scale.decode_size] at hunits
  rw [List.singleton_inj.1 hunits]

/-- Stored weights are read as any raw weights, a lone one too. -/
theorem ofStored_eq_ofRaw (p : Policy) (id : String) (stored : List (RawEntry String)) :
    ofStored p id stored = ⟨id, p.ofRaw stored⟩ := by
  unfold ofStored
  split
  · next e =>
    -- both are budgets of one id, and there is only one
    obtain ⟨fixed, hb, hsplit⟩ := p.isUnitBudget_evenSplit (List.cons_ne_nil e.id [])
    obtain ⟨fixed', hb', hraw⟩ := p.isUnitBudget_ofRaw (List.cons_ne_nil e [])
    rw [hsplit, hraw, hb.eq_lone, Policy.IsBudget.eq_lone hb']
  · rfl

end Tier

namespace Session.Edit

/-- What an edit does to a list of ids. -/
def onIds (ids : List String) : Edit → Except TierError (List String)
  | .weight id _ => if id ∈ ids then .ok ids else .error (.unknownEndpoint id)
  | .attach id => if id ∈ ids then .error (.duplicateEndpoint id) else .ok (ids ++ [id])
  | .detach id => if id ∈ ids then .ok (ids.erase id) else .error (.unknownEndpoint id)

/-- **An edit does to the ids of a tier what it does to a list**, and fails where it does there. -/
theorem map_ids_apply (p : Policy) (t : Tier) (e : Edit) :
    (e.apply p t).map Tier.ids = e.onIds t.ids := by
  cases e with
  | weight id unit =>
    rw [apply, onIds]
    cases h : t.setWeight p id unit with
    | ok t' =>
      obtain ⟨hmem, hids, -⟩ := Tier.ids_setWeight h
      rw [if_pos hmem, Except.map, hids]
    | error e =>
      obtain ⟨hno, rfl⟩ := Tier.setWeight_eq_error_iff.1 h
      rw [if_neg hno, Except.map]
  | attach id =>
    rw [apply, onIds]
    cases h : t.attach p id with
    | ok t' =>
      obtain ⟨hno, hids, -⟩ := Tier.ids_attach h
      rw [if_neg hno, Except.map, hids]
    | error e =>
      obtain ⟨hmem, rfl⟩ := Tier.attach_eq_error_iff.1 h
      rw [if_pos hmem, Except.map]
  | detach id =>
    rw [apply, onIds]
    cases h : t.detach p id with
    | ok t' =>
      obtain ⟨hmem, hids, -⟩ := Tier.ids_detach h
      rw [if_pos hmem, Except.map, hids]
    | error e =>
      obtain ⟨hno, rfl⟩ := Tier.detach_eq_error_iff.1 h
      rw [if_neg hno, Except.map]

end Session.Edit

/-! ## Many edits -/

namespace Tier

/-- What a tier is made from. -/
inductive Origin where
  /-- Nothing. -/
  | nothing
  /-- Unit weights. -/
  | units (p : Policy) (entries : List (Entry String))
  /-- Stored weights. -/
  | stored (p : Policy) (entries : List (RawEntry String))

namespace Origin

/-- The tier that is made. -/
def tier (id : String) : Origin → Tier
  | .nothing => new id
  | .units p entries => ofEntries p id entries
  | .stored p entries => ofStored p id entries

/-- The ids that go into the tier. -/
def ids : Origin → List String
  | .nothing => []
  | .units _ entries => entries.map Entry.id
  | .stored _ entries => entries.map RawEntry.id

@[simp] theorem ids_tier (id : String) (o : Origin) : (o.tier id).ids = o.ids := by
  cases o with
  | nothing => rfl
  | units p entries => exact p.map_id_normalize entries
  | stored p entries => exact ids_ofStored p id entries

/-- A tier is made on the grid of a scale. -/
theorem exists_onGrid (id : String) (o : Origin) : ∃ p, (o.tier id).OnGrid p := by
  cases o with
  | nothing => exact ⟨default, fun h => absurd rfl h⟩
  | units p entries => exact ⟨p, onGrid_normalize rfl⟩
  | stored p entries =>
    have hentries : (Tier.ofStored p id entries).entries =
        p.normalize (entries.map fun r => ⟨r.id, r.weight.toUnit p.percentEpsilon⟩) := by
      rw [ofStored_eq_ofRaw, Policy.ofRaw]
    exact ⟨p, onGrid_normalize hentries⟩

end Origin

/-- A tier after some edits, each under its own policy, and how they failed. -/
def attempt (t : Tier) (edits : List (Policy × Session.Edit)) : List (Option TierError) × Tier :=
  attempts (fun t x => x.2.apply x.1 t) t edits

/-- The same of a list of ids. -/
def attemptIds (ids : List String) (edits : List (Policy × Session.Edit)) :
    List (Option TierError) × List String := attempts (fun ids x => x.2.onIds ids) ids edits

/-- **A tier is an ordered set of ids in which a lone endpoint holds the whole.** It is made from
anything with distinct ids and edited in any way, under any policies. Its ids, and the failures, are
those of the list of ids alone; the next edit fails exactly on a repeated or a missing id; and a lone
endpoint has the unit `1` and the whole scale, whatever weight it came with. -/
theorem tier_is_ordered_set (id : String) (o : Origin) (edits : List (Policy × Session.Edit)) :
    o.ids.Nodup →
    let run := (o.tier id).attempt edits
    let t := run.2
    attemptIds o.ids edits = (run.1, t.ids) ∧
    t.ids.Nodup ∧
    (∀ p x, (t.attach p x = .error (.duplicateEndpoint x) ↔ x ∈ t.ids) ∧
      (x ∉ t.ids → ∃ t', t.attach p x = .ok t' ∧ t'.ids = t.ids ++ [x])) ∧
    (∀ p x, (t.detach p x = .error (.unknownEndpoint x) ↔ x ∉ t.ids) ∧
      (x ∈ t.ids → ∃ t', t.detach p x = .ok t' ∧ t'.ids = t.ids.erase x)) ∧
    (∀ p x unit, (t.setWeight p x unit = .error (.unknownEndpoint x) ↔ x ∉ t.ids) ∧
      (x ∈ t.ids → ∃ t', t.setWeight p x unit = .ok t' ∧ t'.ids = t.ids)) ∧
    (∀ x, t.contains x = true ↔ x ∈ t.ids) ∧
    (∀ x unit, t.unitOf? x = some unit ↔ ⟨x, unit⟩ ∈ t.entries) ∧
    (∀ e, t.entries = [e] → e.unit = 1 ∧ ∀ p, t.fixedWeights p = [⟨e.id, p.scale.size⟩]) ∧
    ∀ p stored, ofStored p id stored = ⟨id, p.ofRaw stored⟩ := by
  intro hnodup run t
  have hrun : attemptIds o.ids edits = (run.1, t.ids) := by
    rw [← o.ids_tier id]
    exact attempts_map (fun t x => x.2.map_ids_apply x.1 t) _ _
  have hdistinct : t.ids.Nodup :=
    attempts_induction (P := fun t : Tier => t.ids.Nodup)
      (fun _ _ _ h he => Session.Edit.nodup_apply he h) (by rwa [o.ids_tier]) edits
  obtain ⟨q, hgrid⟩ : ∃ q, t.OnGrid q :=
    attempts_induction (P := fun t : Tier => ∃ q, t.OnGrid q)
      (fun _ x _ _ he => ⟨x.1, Session.Edit.onGrid_apply he⟩) (o.exists_onGrid id) edits
  have hcontains : ∀ x, t.contains x = true ↔ x ∈ t.ids := fun x => by simp [contains]
  refine ⟨hrun, hdistinct, fun p x => ⟨?_, fun hx => ?_⟩, fun p x => ⟨?_, fun hx => ?_⟩,
    fun p x unit => ⟨?_, fun hx => ?_⟩, hcontains, fun x unit => unitOf?_eq_some_iff hdistinct,
    fun e he => ⟨hgrid.unit_lone he, fun p => fixedWeights_lone p he⟩, fun p stored =>
      ofStored_eq_ofRaw p id stored⟩
  · rw [attach_eq_error_iff, and_iff_left rfl]
  · cases h : t.attach p x with
    | ok t' => exact ⟨t', rfl, (ids_attach h).2.1⟩
    | error e => exact absurd (attach_eq_error_iff.1 h).1 hx
  · rw [detach_eq_error_iff, and_iff_left rfl]
  · cases h : t.detach p x with
    | ok t' => exact ⟨t', rfl, (ids_detach h).2.1⟩
    | error e => exact absurd hx (detach_eq_error_iff.1 h).1
  · rw [setWeight_eq_error_iff, and_iff_left rfl]
  · cases h : t.setWeight p x unit with
    | ok t' => exact ⟨t', rfl, (ids_setWeight h).2.1⟩
    | error e => exact absurd hx (setWeight_eq_error_iff.1 h).1

/-- A lone endpoint of weight zero is joined by another, which outlives it. -/
theorem tier_is_ordered_set_lone :
    let o : Origin := .stored default [⟨"a", ⟨0, none⟩⟩]
    let edits : List (Policy × Session.Edit) := [(default, .attach "b"), (default, .attach "a"),
      (default, .weight "c" 1), (default, .weight "a" 1), (default, .detach "a")]
    o.ids.Nodup ∧ ∃ t e, (o.tier "t").attempt edits =
        ([none, some (.duplicateEndpoint "a"), some (.unknownEndpoint "c"), none, none], t) ∧
      t.entries = [e] ∧ e.id = "b" ∧ e.unit = 1 := by
  intro o edits
  have hnodup : o.ids.Nodup := List.nodup_singleton "a"
  have hmodel : attemptIds o.ids edits =
      ([none, some (.duplicateEndpoint "a"), some (.unknownEndpoint "c"), none, none], ["b"]) :=
    rfl
  obtain ⟨hrun, -, -, -, -, -, -, hlone, -⟩ := tier_is_ordered_set "t" o edits hnodup
  rw [hmodel] at hrun
  generalize (o.tier "t").attempt edits = run at hrun hlone ⊢
  obtain ⟨failures, t⟩ := run
  obtain ⟨rfl, hids⟩ := Prod.mk.inj hrun
  obtain ⟨e, he⟩ : ∃ e, t.entries = [e] :=
    List.length_eq_one_iff.1 (by simpa [ids] using congrArg List.length hids.symm)
  have hid : [e.id] = ["b"] := by
    rw [hids, ids, he, List.map_singleton]
  exact ⟨hnodup, t, e, rfl, he, List.singleton_inj.1 hid, (hlone e he).1⟩

end Tier

end TierBudget
