import TierBudget.Proofs.Json.Records
import TierBudget.Proofs.Snapshot
/-!
# Writing and reading again

A value that is written and read again is the same but for its doubles, which are scaled from
leading digits (`Store.reread`) and need not come back. `Codec.IsStable` says what becomes of values
and of texts: exactly which values stay what they are, short doubles being among them, and that all
would if numbers were read with correct rounding. It holds of every type that goes over the wire
(`Codec.wire_forms_keep_values`). No more than that is true: there are units that move with every
writing and reading (`Codec.entry_drifts`).
-/

namespace TierBudget

/-- A double whose digits and powers of ten are held exactly. -/
def IsShort (v : Float) : Prop :=
  (Numeral.written v).toDecimal.coefficient < 2 ^ 53 ∧
    (Numeral.written v).toDecimal.exponent.natAbs ≤ 22

namespace Codec

open Store (reread)

variable {α : Type}

/-- The value of a text, its doubles being read in the given way. -/
def readWith (c : Codec α) (round : Numeral → Float) (s : String) : Option α :=
  (Json.readWith round s).bind c.decode

theorem read_eq_readWith (c : Codec α) (s : String) :
    c.read s = c.readWith Numeral.scaledFloat s := rfl

/-- What becomes of values that are written and read again, and of texts that are read and written
again. -/
structure IsStable (c : Codec α) (d : Doubles α) : Prop where
  /-- A value of finite doubles is read back but for these, and as it is exactly if each of them
  is. -/
  value : ∀ x, d.AreFinite x → c.read (c.write x) = some (d.map reread x) ∧
    (c.read (c.write x) = some x ↔ ∀ v ∈ d.toList x, reread v = v)
  /-- Short doubles come back. -/
  short : ∀ x, d.AreFinite x → (∀ v ∈ d.toList x, IsShort v) → c.read (c.write x) = some x
  /-- A value with a double that is not finite is written as a text that does not read. -/
  refused : ∀ x, ¬ d.AreFinite x → c.read (c.write x) = none
  /-- What any text is read as is a value of finite doubles, so it is read again when it is written;
  value and text are the same or both are not. -/
  text : ∀ s x, c.read s = some x → d.AreFinite x ∧ ∃ y, c.read (c.write x) = some y ∧
    (y = x ↔ ∀ v ∈ d.toList x, reread v = v) ∧ (c.write y = c.write x ↔ y = x)
  /-- With correct rounding all values of finite doubles come back, and the values of all texts. -/
  exact : (∀ x, d.AreFinite x → c.readWith Numeral.toFloat (c.write x) = some x) ∧
    ∀ s x, c.readWith Numeral.toFloat s = some x → c.readWith Numeral.toFloat (c.write x) = some x

namespace Faithful

variable {c : Codec α} {d : Doubles α} (h : c.Faithful d) {round : Numeral → Float} {x : α}
include h

theorem readWith_write (hround : KeepsFinite round) (hx : d.AreFinite x) :
    c.readWith round (c.write x) = some (d.map (fun v => round (.written v)) x) := by
  rw [readWith, write, Json.compact, Json.readWith_write Json.Spacing.isBlank_compact,
    Option.bind_some, (h.readsBack hround).decode hx]

theorem readWith_write_of_not (hround : KeepsFinite round) (hx : ¬ d.AreFinite x) :
    c.readWith round (c.write x) = none := by
  rw [readWith, write, Json.compact, Json.readWith_write Json.Spacing.isBlank_compact,
    Option.bind_some, (h.readsBack hround).refuse hx]

theorem areFinite_of_readWith {s : String} (hs : c.readWith round s = some x) : d.AreFinite x := by
  obtain ⟨j, -, hj⟩ := Option.bind_eq_some_iff.1 hs
  exact h.areFinite hj

theorem readWith_toFloat (hx : d.AreFinite x) :
    c.readWith Numeral.toFloat (c.write x) = some x := by
  rw [h.readWith_write keepsFinite_toFloat hx,
    d.map_eq_self_iff.2 fun v hv => Numeral.toFloat_written v (hx v hv)]

/-- The text tells values of finite doubles apart. -/
theorem write_inj {y : α} (hx : d.AreFinite x) (hy : d.AreFinite y) :
    c.write x = c.write y ↔ x = y := by
  refine ⟨fun heq => ?_, congrArg c.write⟩
  have hread := h.readWith_toFloat hx
  rw [heq, h.readWith_toFloat hy] at hread
  exact (Option.some.inj hread).symm

theorem read_write (hx : d.AreFinite x) : c.read (c.write x) = some (d.map reread x) := by
  rw [read_eq_readWith, h.readWith_write keepsFinite_scaledFloat hx]
  rfl

theorem read_write_eq_iff (hx : d.AreFinite x) :
    c.read (c.write x) = some x ↔ ∀ v ∈ d.toList x, reread v = v := by
  rw [h.read_write hx, Option.some_inj, d.map_eq_self_iff]

theorem isStable : c.IsStable d where
  value x hx := ⟨h.read_write hx, h.read_write_eq_iff hx⟩
  short x hx hshort := (h.read_write_eq_iff hx).2 fun v hv =>
    Store.reread_eq_self (hx v hv) (hshort v hv).1 (hshort v hv).2
  refused x hx := h.readWith_write_of_not keepsFinite_scaledFloat hx
  text s x hs := by
    have hx := h.areFinite_of_readWith hs
    have hy : d.AreFinite (d.map reread x) := hx.map fun v => keepsFinite_scaledFloat v
    exact ⟨hx, d.map reread x, h.read_write hx, d.map_eq_self_iff, h.write_inj hy hx⟩
  exact := ⟨fun _ hx => h.readWith_toFloat hx,
    fun _ _ hs => h.readWith_toFloat (h.areFinite_of_readWith hs)⟩

end Faithful

/-! ## Wire types -/

/-- The types that go over the wire, one by one or in lists. -/
inductive WireType where
  | scale
  | denomination
  | entry
  | rawWeight
  | rawEntry
  | rawEntries
  | fixedEntry
  | policy
  | settings
  | tier
  | plan
  | editState

namespace WireType

/-- The values of a type. -/
abbrev Value : WireType → Type
  | .scale => Scale
  | .denomination => Denomination
  | .entry => Entry String
  | .rawWeight => RawWeight
  | .rawEntry => RawEntry String
  | .rawEntries => List (RawEntry String)
  | .fixedEntry => FixedEntry String
  | .policy => Policy
  | .settings => Settings
  | .tier => Tier
  | .plan => CommitPlan
  | .editState => EditState

/-- The JSON form of a type. -/
def codec : (w : WireType) → Codec w.Value
  | .scale => Codec.scale
  | .denomination => Codec.denomination
  | .entry => Codec.entry
  | .rawWeight => Codec.rawWeight
  | .rawEntry => Codec.rawEntry
  | .rawEntries => Codec.rawEntry.list
  | .fixedEntry => Codec.fixedEntry
  | .policy => Codec.policy
  | .settings => Codec.settings
  | .tier => Codec.tier
  | .plan => Codec.plan
  | .editState => Codec.editState

/-- The doubles in the values of a type. -/
def doubles : (w : WireType) → Doubles w.Value
  | .scale | .denomination | .fixedEntry | .plan | .editState => .none
  | .entry => .entry
  | .rawWeight => .rawWeight
  | .rawEntry => .rawEntry
  | .rawEntries => .list .rawEntry
  | .policy => .policy
  | .settings => .settings
  | .tier => .tier

theorem faithful_codec : ∀ w : WireType, w.codec.Faithful w.doubles
  | .scale => faithful_none readsBack_scale
  | .denomination => faithful_none fun _ => readsBack_denomination
  | .entry => faithful_entry
  | .rawWeight => faithful_rawWeight
  | .rawEntry => faithful_rawEntry
  | .rawEntries => faithful_rawEntry.list
  | .fixedEntry => faithful_none fun _ => readsBack_fixedEntry
  | .policy => faithful_policy
  | .settings => faithful_settings
  | .tier => faithful_tier
  | .plan => faithful_none fun _ => readsBack_plan
  | .editState => faithful_none fun _ => readsBack_editState

end WireType

/-- **What goes over the wire is kept but for doubles.** Written and read again, a value of finite
doubles is the same, ids and absent denominations included, except that its doubles are scaled from
leading digits. -/
theorem wire_forms_keep_values (w : WireType) : w.codec.IsStable w.doubles :=
  w.faithful_codec.isStable

/-- A tier of two quarters comes back, and one of a weight that is no number does not. -/
theorem wire_forms_keep_values_quarters :
    tier.read (tier.write ⟨"t", [⟨"a", 0.25⟩, ⟨"\x22", 0.75⟩]⟩) =
        some ⟨"t", [⟨"a", 0.25⟩, ⟨"\x22", 0.75⟩]⟩ ∧
      tier.read (tier.write ⟨"t", [⟨"a", 0 / 0⟩]⟩) = none := by
  have hstable : tier.IsStable .tier := wire_forms_keep_values .tier
  exact ⟨(hstable.value _ (by decide +kernel)).2.2 (by decide +kernel),
    hstable.refused _ (by decide +kernel)⟩

/-- A unit that becomes another one each time it is written and read: what was read of one text is
not read of its own. -/
theorem entry_drifts :
    let x : Entry String := ⟨"a", 8.461974184283128e-10⟩
    ∃ y z, Doubles.entry.AreFinite y ∧ entry.read (entry.write x) = some y ∧
      entry.read (entry.write y) = some z ∧ z ≠ y ∧ entry.write z ≠ entry.write y := by
  intro x
  have hx : Doubles.entry.AreFinite x := by decide +kernel
  have hy : Doubles.entry.AreFinite (Doubles.entry.map reread x) :=
    hx.map fun v => keepsFinite_scaledFloat v
  have hz : Doubles.entry.AreFinite (Doubles.entry.map reread (Doubles.entry.map reread x)) :=
    hy.map fun v => keepsFinite_scaledFloat v
  have hne : Doubles.entry.map reread (Doubles.entry.map reread x) ≠ Doubles.entry.map reread x := by
    decide +kernel
  refine ⟨_, _, hy, faithful_entry.read_write hx, faithful_entry.read_write hy, hne, fun h => ?_⟩
  exact hne ((faithful_entry.write_inj hz hy).1 h)

end Codec

end TierBudget
