import TierBudget.Json.Wire
import TierBudget.Proofs.Decimal.Scaled
import TierBudget.Proofs.Json.Texts
/-!
# JSON forms that read back

`Codec.ReadsBack` says of the JSON form of a type what reading makes of the texts it writes: which
values are read at all, and what they become. Texts and scales read back without exception; doubles
must be finite and become what the reader makes of their numerals. Entries, lists and catalogues
read back field by field, element by element and name by name.
-/

namespace TierBudget

/-! ## Lists -/

section

variable {α β : Type} {f : α → Option β} {xs : List α}

theorem mapM_eq_some {g : α → β} (h : ∀ x ∈ xs, f x = some (g x)) :
    xs.mapM f = some (xs.map g) := by
  induction xs with
  | nil => rfl
  | cons x xs ih =>
    rw [List.forall_mem_cons] at h
    rw [List.mapM_cons, h.1, ih h.2]
    rfl

theorem mapM_eq_none (h : ∃ x ∈ xs, f x = none) : xs.mapM f = none := by
  induction xs with
  | nil => simp at h
  | cons x xs ih =>
    rw [List.exists_mem_cons_iff] at h
    rw [List.mapM_cons]
    rcases h with h | h
    · rw [h]
      rfl
    · rw [ih h]
      cases f x <;> rfl

end

/-- The entry with another weight. -/
def RawEntry.mapValue {ι : Type} (f : Float → Float) (e : RawEntry ι) : RawEntry ι :=
  { e with weight.value := f e.weight.value }

namespace Codec

variable {α : Type} (round : Numeral → Float)

/-! ## Reading back -/

/-- The rule reads what is written for a finite double as a finite one. -/
def KeepsFinite : Prop :=
  ∀ x : Float, x.isFinite = true → (round (.written x)).isFinite = true

theorem keepsFinite_scaledFloat : KeepsFinite Numeral.scaledFloat :=
  fun _ => Numeral.isFinite_scaledFloat_written

theorem keepsFinite_toFloat : KeepsFinite Numeral.toFloat := by
  intro x h
  rwa [Numeral.toFloat_written x h]

/-- A codec whose texts read back: `f` says what a value becomes, and `ok` which values are read at
all. -/
structure ReadsBack (c : Codec α) (ok : α → Prop) (f : α → α) : Prop where
  decode : ∀ {x}, ok x → c.decode ((c.encode x).reread round) = some (f x)
  refuse : ∀ {x}, ¬ ok x → c.decode ((c.encode x).reread round) = none

/-- Without blanks as well, reading what was written gives what `f` says. -/
theorem ReadsBack.read_write {c : Codec α} {ok : α → Prop} {f : α → α}
    (h : c.ReadsBack Numeral.scaledFloat ok f) {x : α} (hx : ok x) :
    c.read (c.write x) = some (f x) := by
  rw [read, write, Json.compact, Json.read, Json.readWith_write Json.Spacing.isBlank_compact,
    Option.bind_some, h.decode hx]

/-! ## Scalars -/

theorem readsBack_text : text.ReadsBack round (fun _ => True) id where
  decode _ := rfl
  refuse h := absurd trivial h

theorem decode_count {n : Count} : count.decode (.integer n.toNat) = some n := by
  have hdecode (z : ℤ) : count.decode (.integer z) =
    if 0 ≤ z ∧ z < UInt32.size then some (.ofNat z.toNat) else none := rfl
  rw [hdecode, if_pos ⟨Int.natCast_nonneg _, Int.ofNat_lt.2 n.toNat_lt⟩, Int.toNat_natCast,
    UInt32.ofNat_toNat]

theorem fitsWord_toNat (n : Count) : Json.fitsWord n.toNat = true := by
  have hmin : Int64.minValue.toInt ≤ 0 := by decide
  rw [Json.fitsWord, Bool.and_eq_true, decide_eq_true_eq, decide_eq_true_eq]
  exact ⟨hmin.trans (Int.natCast_nonneg _), Int.ofNat_lt.2 (n.toNat_lt.trans (by decide))⟩

theorem reread_count (n : Count) :
    (Json.integer n.toNat).reread round = .integer n.toNat := by
  rw [Json.reread, if_pos (fitsWord_toNat n)]

theorem readsBack_scale : scale.ReadsBack round (fun _ => True) id where
  decode {s} _ := by
    have hencode : scale.encode s = .integer s.size.toNat := rfl
    have hdecode (j : Json) : scale.decode j = (count.decode j).bind Scale.ofCount? := rfl
    rw [hencode, reread_count, hdecode, decode_count, Option.bind_some]
    exact dif_pos s.size_pos
  refuse h := absurd trivial h

variable {round}

theorem readsBack_float (hround : KeepsFinite round) :
    float.ReadsBack round (fun x => x.isFinite = true) fun x => round (.written x) where
  decode {x} h := by
    change float.decode ((Json.float x).reread round) = _
    rw [Json.reread, if_pos h]
    exact if_pos (hround x h)
  refuse {x} h := by
    change float.decode ((Json.float x).reread round) = _
    rw [Json.reread, if_neg h]
    rfl

/-! ## Entries, lists and catalogues -/

theorem reread_rawEntry (e : RawEntry String) :
    (rawEntry.encode e).reread round = .record (("id", (text.encode e.id).reread round) ::
      ("weight", (float.encode e.weight.value).reread round) ::
        denomination.optionalMember "scale" e.weight.denomination) := by
  obtain ⟨id, value, d⟩ := e
  have hencode : rawEntry.encode ⟨id, value, d⟩ = .record (("id", text.encode id) ::
    ("weight", float.encode value) :: denomination.optionalMember "scale" d) := rfl
  rw [hencode, Json.reread_record]
  rcases d with _ | d <;> rfl

theorem decode_rawEntry (i j : Json) (d : Option Denomination) :
    rawEntry.decode (.record (("id", i) :: ("weight", j) ::
      denomination.optionalMember "scale" d)) =
        (text.decode i).bind fun id => (float.decode j).bind fun value => some ⟨id, value, d⟩ := by
  rcases d with _ | _ | _ <;> rfl

theorem readsBack_rawEntry (hround : KeepsFinite round) :
    rawEntry.ReadsBack round (fun e => e.weight.value.isFinite = true)
      (RawEntry.mapValue fun x => round (.written x)) where
  decode h := by
    rw [reread_rawEntry, decode_rawEntry, (readsBack_text round).decode trivial,
      (readsBack_float hround).decode h]
    rfl
  refuse h := by
    rw [reread_rawEntry, decode_rawEntry, (readsBack_text round).decode trivial,
      (readsBack_float hround).refuse h]
    rfl

variable (c : Codec α)

theorem reread_list (xs : List α) :
    (c.list.encode xs).reread round = .array (xs.map fun x => (c.encode x).reread round) := by
  have hencode : c.list.encode xs = .array (xs.map c.encode) := rfl
  rw [hencode, Json.reread_array, List.map_map]
  rfl

theorem decode_list (js : List Json) : c.list.decode (.array js) = js.mapM c.decode := rfl

theorem reread_catalogue (cat : Catalogue α) :
    (c.catalogue.encode cat).reread round =
      .record (cat.toList.map fun x => (x.1, (c.encode x.2).reread round)) := by
  have hencode : c.catalogue.encode cat =
    .record (cat.toList.map fun x => (x.1, c.encode x.2)) := rfl
  rw [hencode, Json.reread_record, List.map_map]
  rfl

theorem decode_catalogue (ms : List (String × Json)) :
    c.catalogue.decode (.record ms) =
      (ms.mapM fun x => (c.decode x.2).bind fun y => some (x.1, y)).bind
        fun pairs => some (.ofList pairs) := by
  have hdecode (ms : List (JsonString × Json)) : c.catalogue.decode (.object ms) =
    (ms.mapM fun (x : JsonString × Json) =>
      x.1.bind fun k => (c.decode x.2).bind fun y => some (k, y)).bind
        fun pairs => some (.ofList pairs) := rfl
  rw [Json.record, hdecode, List.mapM_map]
  rfl

variable {c} {ok : α → Prop} {f : α → α} (h : c.ReadsBack round ok f)
include h

theorem readsBack_list : c.list.ReadsBack round (fun xs => ∀ x ∈ xs, ok x) (List.map f) where
  decode {xs} hxs := by
    rw [reread_list, decode_list, List.mapM_map]
    exact mapM_eq_some fun x hx => h.decode (hxs x hx)
  refuse {xs} hxs := by
    push Not at hxs
    obtain ⟨x, hx, hbad⟩ := hxs
    rw [reread_list, decode_list, List.mapM_map]
    exact mapM_eq_none ⟨x, hx, h.refuse hbad⟩

theorem readsBack_catalogue :
    c.catalogue.ReadsBack round (fun cat => ∀ x ∈ cat.toList, ok x.2) (Catalogue.map f) where
  decode {cat} hcat := by
    rw [reread_catalogue, decode_catalogue, List.mapM_map,
      mapM_eq_some (g := fun x => (x.1, f x.2)) fun x hx => by
        rw [Function.comp_apply, h.decode (hcat x hx)]
        rfl]
    exact congrArg some (Catalogue.ofList_toList (cat.map f))
  refuse {cat} hcat := by
    push Not at hcat
    obtain ⟨x, hx, hbad⟩ := hcat
    rw [reread_catalogue, decode_catalogue, List.mapM_map,
      mapM_eq_none ⟨x, hx, by
        rw [Function.comp_apply, h.refuse hbad]
        rfl⟩]
    rfl

end Codec

end TierBudget
