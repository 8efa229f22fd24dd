import Mathlib.Tactic.Common
import TierBudget.Session
import TierBudget.Settings.Basic
/-!
# The doubles in a value

Of the data that go over the wire only the doubles need care: everything else reads back as it was
written. `Doubles` says which doubles a value holds, in order, and what the value is with others in
their place. No value holds doubles in more than one of its fields, so besides lists one combinator
is enough (`Doubles.field`).
-/

namespace TierBudget

/-- The doubles that the values of a type hold, and the values with others in their place. -/
structure Doubles (α : Type) where
  toList : α → List Float
  map : (Float → Float) → α → α
  toList_map : ∀ f x, toList (map f x) = (toList x).map f
  map_eq_self_iff : ∀ {f x}, map f x = x ↔ ∀ v ∈ toList x, f v = v

namespace Doubles

variable {α β : Type}

/-! ## Combinators -/

/-- No doubles. -/
def none : Doubles α where
  toList _ := []
  map _ x := x
  toList_map _ _ := rfl
  map_eq_self_iff := by simp

/-- A double holds itself. -/
def self : Doubles Float where
  toList v := [v]
  map f v := f v
  toList_map _ _ := rfl
  map_eq_self_iff := by simp

/-- A list holds what its elements hold. -/
def list (d : Doubles α) : Doubles (List α) where
  toList xs := xs.flatMap d.toList
  map f xs := xs.map (d.map f)
  toList_map f xs := by
    rw [List.flatMap_map, List.map_flatMap]
    simp only [d.toList_map]
  map_eq_self_iff {f xs} := by
    have hid := @List.map_inj_left _ _ xs (d.map f) id
    rw [List.map_id] at hid
    simp only [hid, id_eq, d.map_eq_self_iff, List.forall_mem_flatMap]

/-- A record holds what one of its fields holds. -/
def field (d : Doubles β) (get : α → β) (set : α → β → α) (get_set : ∀ x b, get (set x b) = b)
    (set_eq_self_iff : ∀ x b, set x b = x ↔ b = get x) : Doubles α where
  toList x := d.toList (get x)
  map f x := set x (d.map f (get x))
  toList_map f x := by rw [get_set, d.toList_map]
  map_eq_self_iff {f x} := by rw [set_eq_self_iff, d.map_eq_self_iff]

/-! ## Wire types -/

/-- The unit of an entry. -/
def entry : Doubles (Entry String) :=
  self.field Entry.unit (fun e v => { e with unit := v }) (fun _ _ => rfl) fun ⟨_, _⟩ _ => by simp

/-- The value of a raw weight. -/
def rawWeight : Doubles RawWeight :=
  self.field RawWeight.value (fun w v => { w with value := v }) (fun _ _ => rfl) fun ⟨_, _⟩ _ => by
    simp

/-- The value of the weight of a raw entry. -/
def rawEntry : Doubles (RawEntry String) :=
  rawWeight.field RawEntry.weight (fun e w => { e with weight := w }) (fun _ _ => rfl)
    fun ⟨_, _⟩ _ => by simp

/-- The units of the entries of a tier. -/
def tier : Doubles Tier :=
  entry.list.field Tier.entries (fun t es => { t with entries := es }) (fun _ _ => rfl)
    fun ⟨_, _⟩ _ => by simp

/-- The tolerance of a policy. -/
def policy : Doubles Policy :=
  self.field Policy.percentEpsilon (fun p v => { p with percentEpsilon := v }) (fun _ _ => rfl)
    fun ⟨_, _⟩ _ => by simp

/-- The tolerance in settings. -/
def settings : Doubles Settings :=
  policy.field Settings.policy (fun s p => { s with policy := p }) (fun _ _ => rfl)
    fun ⟨_, _⟩ _ => by simp

/-! ## Finite doubles -/

/-- The value holds no double that is not finite. -/
def AreFinite (d : Doubles α) (x : α) : Prop := ∀ v ∈ d.toList x, v.isFinite = true

instance (d : Doubles α) : DecidablePred d.AreFinite :=
  fun x => inferInstanceAs (Decidable (∀ v ∈ d.toList x, v.isFinite = true))

theorem areFinite_none (x : α) : none.AreFinite x := fun _ h => (List.not_mem_nil h).elim

theorem areFinite_self {v : Float} : self.AreFinite v ↔ v.isFinite = true := List.forall_mem_singleton

theorem areFinite_list {d : Doubles α} {xs : List α} :
    d.list.AreFinite xs ↔ ∀ x ∈ xs, d.AreFinite x := List.forall_mem_flatMap

theorem AreFinite.map {d : Doubles α} {f : Float → Float} {x : α} (hx : d.AreFinite x)
    (hf : ∀ v, v.isFinite = true → (f v).isFinite = true) : d.AreFinite (d.map f x) := by
  intro w hw
  rw [d.toList_map] at hw
  obtain ⟨v, hv, rfl⟩ := List.mem_map.1 hw
  exact hf v (hx v hv)

end Doubles

end TierBudget
