import TierBudget.Proofs.Json.Codecs
import TierBudget.Proofs.Json.Doubles
/-!
# JSON forms that lose nothing but doubles

`Codec.Faithful` says that the JSON form of a type keeps a value as it is but for its doubles, which
become what the reader makes of their numerals, and that it reads none that is not finite. The forms
of all records are faithful because those of their fields are.
-/

namespace TierBudget.Codec

variable {α β γ : Type} {round : Numeral → Float}

/-- A codec that keeps values but for their doubles, and reads finite ones only. -/
structure Faithful (c : Codec α) (d : Doubles α) : Prop where
  readsBack : ∀ {round}, KeepsFinite round →
    c.ReadsBack round d.AreFinite (d.map fun v => round (.written v))
  areFinite : ∀ {j x}, c.decode j = some x → d.AreFinite x

theorem ReadsBack.congr {c : Codec α} {ok ok' : α → Prop} {f f' : α → α}
    (h : c.ReadsBack round ok f) (hok : ∀ x, ok' x ↔ ok x) (hf : ∀ x, f' x = f x) :
    c.ReadsBack round ok' f' where
  decode {x} hx := by rw [h.decode ((hok x).1 hx), hf]
  refuse {x} hx := h.refuse fun hx' => hx ((hok x).2 hx')

/-! ## Scalars and lists -/

/-- What is read of a list is read of its elements. -/
theorem exists_of_mem_mapM {f : α → Option β} {js : List α} {xs : List β}
    (h : js.mapM f = some xs) {x : β} (hx : x ∈ xs) : ∃ j ∈ js, f j = some x := by
  induction js generalizing xs with
  | nil =>
    cases h
    cases hx
  | cons j js ih =>
    rw [List.mapM_cons] at h
    obtain ⟨y, hy, h⟩ := Option.bind_eq_some_iff.1 h
    obtain ⟨ys, hys, h⟩ := Option.bind_eq_some_iff.1 h
    cases h
    rcases List.mem_cons.1 hx with rfl | hx
    · exact ⟨j, List.mem_cons_self, hy⟩
    · obtain ⟨i, hi, hfi⟩ := ih hys hx
      exact ⟨i, List.mem_cons_of_mem _ hi, hfi⟩

/-- What holds no doubles reads back as it was. -/
theorem faithful_none {c : Codec α} (h : ∀ round, c.ReadsBack round (fun _ => True) id) :
    c.Faithful .none where
  readsBack _ := (h _).congr (fun x => iff_true_intro (Doubles.areFinite_none x)) fun _ => rfl
  areFinite _ := Doubles.areFinite_none _

theorem readsBack_count : count.ReadsBack round (fun _ => True) id where
  decode {n} _ := by
    have hencode : count.encode n = .integer n.toNat := rfl
    rw [hencode, reread_count, decode_count]
    rfl
  refuse h := absurd trivial h

theorem readsBack_denomination : denomination.ReadsBack round (fun _ => True) id where
  decode {x} _ := by cases x <;> rfl
  refuse h := absurd trivial h

theorem readsBack_editState : editState.ReadsBack round (fun _ => True) id where
  decode {x} _ := by cases x <;> rfl
  refuse h := absurd trivial h

theorem faithful_float : float.Faithful .self where
  readsBack hround := (readsBack_float hround).congr (fun _ => Doubles.areFinite_self) fun _ => rfl
  areFinite {j x} h := by
    rw [Doubles.areFinite_self]
    cases j with
    | integer n =>
      change (if _ then _ else _) = _ at h
      split at h <;> simp_all
    | float y =>
      change (if _ then _ else _) = _ at h
      split at h <;> simp_all
    | null | bool | string | array | object => cases h

theorem Faithful.list {c : Codec α} {d : Doubles α} (h : c.Faithful d) : c.list.Faithful d.list where
  readsBack hround :=
    (readsBack_list (h.readsBack hround)).congr (fun _ => Doubles.areFinite_list) fun _ => rfl
  areFinite {j xs} hj := by
    obtain ⟨js, -, hjs⟩ := Option.bind_eq_some_iff.1 hj
    rw [Doubles.areFinite_list]
    intro x hx
    obtain ⟨j, -, hdecode⟩ := exists_of_mem_mapM hjs hx
    exact h.areFinite hdecode

/-! ## Fields -/

section

variable {c : Codec α} {d : Doubles α} (h : c.Faithful d) {field : Option Json} {x : α}
include h

theorem Faithful.of_required (hx : c.required field = some x) : d.AreFinite x := by
  obtain ⟨j, -, hj⟩ := Option.bind_eq_some_iff.1 hx
  exact h.areFinite hj

theorem Faithful.of_withDefault {value : α} (hvalue : d.AreFinite value)
    (hx : c.withDefault value field = some x) : d.AreFinite x := by
  cases field with
  | none => exact Option.some.inj hx ▸ hvalue
  | some j => exact h.areFinite hx

end

/-! ## Records -/

/-- A record of two fields, when it is read. -/
theorem exists_of_fields {names : List String} {j : Json} {f : Option Json → Option α}
    {g : Option Json → Option β} {mk : α → β → γ} {x : γ}
    (h : (do
      let [a, b] ← fields? names j | none
      return mk (← f a) (← g b)) = some x) :
    ∃ a b y z, f a = some y ∧ g b = some z ∧ x = mk y z := by
  obtain ⟨fields, -, h⟩ := Option.bind_eq_some_iff.1 h
  split at h
  · obtain ⟨y, hy, h⟩ := Option.bind_eq_some_iff.1 h
    obtain ⟨z, hz, h⟩ := Option.bind_eq_some_iff.1 h
    exact ⟨_, _, y, z, hy, hz, (Option.some.inj h).symm⟩
  · cases h

/-- A record of two fields, when both are written. -/
theorem ReadsBack.record {c : Codec γ} {a : Codec α} {b : Codec β} {k l : String}
    (fst : γ → α) (snd : γ → β) (mk : α → β → γ) {okA : α → Prop} {okB : β → Prop} {f : α → α}
    {g : β → β}
    (hencode : ∀ x, c.encode x = .record [(k, a.encode (fst x)), (l, b.encode (snd x))])
    (hdecode : ∀ i j, c.decode (.record [(k, i), (l, j)]) =
      (a.decode i).bind fun x => (b.decode j).bind fun y => some (mk x y))
    (ha : a.ReadsBack round okA f) (hb : b.ReadsBack round okB g) :
    c.ReadsBack round (fun x => okA (fst x) ∧ okB (snd x))
      fun x => mk (f (fst x)) (g (snd x)) := by
  have hreread (x : γ) : (c.encode x).reread round =
      .record [(k, (a.encode (fst x)).reread round), (l, (b.encode (snd x)).reread round)] := by
    rw [hencode, Json.reread_record]
    rfl
  refine ⟨fun {x} hx => ?_, fun {x} hx => ?_⟩
  · rw [hreread, hdecode, ha.decode hx.1, hb.decode hx.2]
    rfl
  · rw [hreread, hdecode]
    by_cases hA : okA (fst x)
    · rw [ha.decode hA, hb.refuse fun hB => hx ⟨hA, hB⟩]
      rfl
    · rw [ha.refuse hA]
      rfl

theorem faithful_entry : entry.Faithful .entry where
  readsBack hround :=
    (ReadsBack.record Entry.id Entry.unit Entry.mk (fun _ => rfl) (fun _ _ => rfl)
      (readsBack_text _) (faithful_float.readsBack hround)).congr
        (fun _ => (true_and _).to_iff.symm) fun _ => rfl
  areFinite {j x} h := by
    obtain ⟨a, b, id, unit, -, hunit, rfl⟩ := exists_of_fields h
    exact faithful_float.of_required hunit

theorem readsBack_fixedEntry : fixedEntry.ReadsBack round (fun _ => True) id :=
  (ReadsBack.record FixedEntry.id FixedEntry.count FixedEntry.mk (fun _ => rfl) (fun _ _ => rfl)
    (readsBack_text _) readsBack_count).congr (fun _ => (true_and _).to_iff.symm) fun _ => rfl

theorem faithful_tier : tier.Faithful .tier where
  readsBack hround :=
    (ReadsBack.record Tier.id Tier.entries Tier.mk (fun _ => rfl) (fun _ _ => rfl)
      (readsBack_text _) (faithful_entry.list.readsBack hround)).congr
        (fun _ => (true_and _).to_iff.symm) fun _ => rfl
  areFinite {j x} h := by
    obtain ⟨a, b, id, entries, -, hentries, rfl⟩ := exists_of_fields h
    exact faithful_entry.list.of_required hentries

theorem faithful_policy : policy.Faithful .policy where
  readsBack hround :=
    (ReadsBack.record Policy.scale Policy.percentEpsilon Policy.mk (fun _ => rfl) (fun _ _ => rfl)
      (readsBack_scale _) (faithful_float.readsBack hround)).congr
        (fun _ => (true_and _).to_iff.symm) fun _ => rfl
  areFinite {j x} h := by
    obtain ⟨a, b, size, epsilon, -, hepsilon, rfl⟩ := exists_of_fields h
    exact faithful_float.of_withDefault (Doubles.areFinite_self.2 (by decide +kernel)) hepsilon

theorem readsBack_staging : staging.ReadsBack round (fun _ => True) id where
  decode {b} _ := by cases b <;> rfl
  refuse h := absurd trivial h

theorem faithful_settings : settings.Faithful .settings where
  readsBack hround :=
    (ReadsBack.record Settings.policy Settings.requireSettled Settings.mk (fun _ => rfl)
      (fun _ _ => rfl) (faithful_policy.readsBack hround) readsBack_staging).congr
        (fun _ => (and_true _).to_iff.symm) fun _ => rfl
  areFinite {j x} h := by
    obtain ⟨a, b, p, settled, hp, -, rfl⟩ := exists_of_fields h
    exact faithful_policy.of_withDefault (by decide +kernel) hp

theorem reread_rawWeight (w : RawWeight) :
    (rawWeight.encode w).reread round = .record (("value", (float.encode w.value).reread round) ::
      denomination.optionalMember "scale" w.denomination) := by
  obtain ⟨value, d⟩ := w
  have hencode : rawWeight.encode ⟨value, d⟩ =
    .record (("value", float.encode value) :: denomination.optionalMember "scale" d) := rfl
  rw [hencode, Json.reread_record]
  rcases d with _ | d <;> rfl

theorem decode_rawWeight (j : Json) (d : Option Denomination) :
    rawWeight.decode (.record (("value", j) :: denomination.optionalMember "scale" d)) =
      (float.decode j).bind fun value => some ⟨value, d⟩ := by
  rcases d with _ | _ | _ <;> rfl

theorem faithful_rawWeight : rawWeight.Faithful .rawWeight where
  readsBack hround := by
    refine ⟨fun {w} hw => ?_, fun {w} hw => ?_⟩
    · rw [reread_rawWeight, decode_rawWeight, (faithful_float.readsBack hround).decode hw]
      rfl
    · rw [reread_rawWeight, decode_rawWeight, (faithful_float.readsBack hround).refuse hw]
      rfl
  areFinite {j x} h := by
    obtain ⟨a, b, value, scale, hvalue, -, rfl⟩ := exists_of_fields h
    exact faithful_float.of_required hvalue

theorem faithful_rawEntry : rawEntry.Faithful .rawEntry where
  readsBack hround :=
    (readsBack_rawEntry hround).congr (fun _ => Doubles.areFinite_self) fun _ => rfl
  areFinite {j x} h := by
    obtain ⟨fields, -, h⟩ := Option.bind_eq_some_iff.1 h
    split at h
    · obtain ⟨id, -, h⟩ := Option.bind_eq_some_iff.1 h
      obtain ⟨value, hvalue, h⟩ := Option.bind_eq_some_iff.1 h
      obtain ⟨scale, -, h⟩ := Option.bind_eq_some_iff.1 h
      cases h
      exact faithful_float.of_required hvalue
    · cases h

theorem readsBack_plan : plan.ReadsBack round (fun _ => True) id where
  decode {x} _ := by
    have hencode : plan.encode x = .record [("tier_id", text.encode x.tierId),
      ("updates", fixedEntry.list.encode x.updates), ("removed", text.list.encode x.removed)] := rfl
    have hdecode (i j k : Json) :
        plan.decode (.record [("tier_id", i), ("updates", j), ("removed", k)]) =
          (text.decode i).bind fun id => (fixedEntry.list.decode j).bind fun updates =>
            (text.list.decode k).bind fun removed => some ⟨id, updates, removed⟩ := rfl
    rw [hencode, Json.reread_record]
    refine (hdecode _ _ _).trans ?_
    rw [(readsBack_text round).decode trivial,
      (readsBack_list readsBack_fixedEntry).decode fun _ _ => trivial,
      (readsBack_list (readsBack_text round)).decode fun _ _ => trivial, List.map_id, List.map_id]
    rfl
  refuse h := absurd trivial h

end TierBudget.Codec
