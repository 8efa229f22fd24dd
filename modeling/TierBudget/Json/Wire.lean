import TierBudget.Json.Reader
import TierBudget.Json.Printer
import TierBudget.Settings.Basic
import TierBudget.Store
/-!
# The JSON forms of weights, tiers, plans and settings

A `Codec` is the JSON form of a type: how a value is written, and which JSON values read as one.
Records are written as objects with their fields in a fixed order. They are read from objects, where
unknown members are passed over and known ones must not repeat, and from arrays of the field values
in order, from whose end fields with a default may be missing.
-/

namespace TierBudget

/-- The JSON form of a type. -/
structure Codec (α : Type) where
  encode : α → Json
  decode : Json → Option α

namespace Codec

variable {α : Type}

/-- The compact text of a value. -/
def write (c : Codec α) (x : α) : String := (c.encode x).compact

/-- The value that a text writes. -/
def read (c : Codec α) (s : String) : Option α := (Json.read s).bind c.decode

/-- The text that writes the value of a text. -/
def canonical (c : Codec α) (s : String) : Option String := (c.read s).map c.write

/-! ## Scalars -/

/-- Texts are strings. -/
def text : Codec String := ⟨.text, Json.text?⟩

/-- Booleans. -/
def bool : Codec Bool where
  encode := .bool
  decode
    | .bool b => some b
    | _ => none

/-- Doubles read from any number that is not too large; one that is not finite is written as
`null`, which does not read back. -/
def float : Codec Float where
  encode := .float
  decode
    | .integer n => let x := applySign (n < 0) (.ofNat n.natAbs); if x.isFinite then some x else none
    | .float x => if x.isFinite then some x else none
    | _ => none

/-- Counts read from integers of the 32-bit range. -/
def count : Codec Count where
  encode n := .integer n.toNat
  decode
    | .integer n => if 0 ≤ n ∧ n < UInt32.size then some (.ofNat n.toNat) else none
    | _ => none

/-- Scales are counts that are not zero. -/
def scale : Codec Scale where
  encode s := count.encode s.size
  decode j := (count.decode j).bind Scale.ofCount?

/-- The name in a string, or in an object whose one member has the name for its key and `null` for
its value. -/
def nameOf? : Json → Option String
  | .string s => s
  | .object [(k, .null)] => k
  | _ => none

/-- Denominations are names. -/
def denomination : Codec Denomination where
  encode d := .text d.name
  decode j := do
    let name ← nameOf? j
    [Denomination.fraction, .percent].find? (·.name = name)

/-- Edit states are names. -/
def editState : Codec EditState where
  encode s := .text s.name
  decode j := do
    let name ← nameOf? j
    [EditState.clean, .dirty, .saving].find? (·.name = name)

/-- Lists are arrays. -/
def list (c : Codec α) : Codec (List α) where
  encode xs := .array (xs.map c.encode)
  decode j := do (← j.elements?).mapM c.decode

/-! ## Records -/

/-- The value of a member, if there is one; no answer if there are several. -/
def member? (members : List (JsonString × Json)) (name : String) : Option (Option Json) :=
  match members.filter (·.1 == some name) with
  | [] => some none
  | [(_, x)] => some (some x)
  | _ => none

/-- The values of a record's fields, absent ones as `none`. -/
def fields? (names : List String) : Json → Option (List (Option Json))
  | .array xs =>
    if xs.length ≤ names.length then
      some (xs.map some ++ List.replicate (names.length - xs.length) none)
    else none
  | .object members =>
    if members.all (·.1.isSome) then names.mapM (member? members) else none
  | _ => none

/-- A field that must be there. -/
def required (c : Codec α) (field : Option Json) : Option α := field.bind c.decode

/-- A field that has a default. -/
def withDefault (c : Codec α) (value : α) : Option Json → Option α
  | none => some value
  | some j => c.decode j

/-- A field that may be absent or `null`. -/
def optional (c : Codec α) : Option Json → Option (Option α)
  | none | some .null => some none
  | some j => (c.decode j).map some

/-- The member of an optional field, left out where there is no value. -/
def optionalMember (c : Codec α) (name : String) (value : Option α) : List (String × Json) :=
  match value with
  | some x => [(name, c.encode x)]
  | none => []

/-- An endpoint and its unit weight. -/
def entry : Codec (Entry String) where
  encode e := .record [("id", text.encode e.id), ("unit", float.encode e.unit)]
  decode j := do
    let [id, unit] ← fields? ["id", "unit"] j | none
    return ⟨← text.required id, ← float.required unit⟩

/-- A raw weight; its denomination may be missing. -/
def rawWeight : Codec RawWeight where
  encode w := .record (("value", float.encode w.value) ::
    denomination.optionalMember "scale" w.denomination)
  decode j := do
    let [value, scale] ← fields? ["value", "scale"] j | none
    return ⟨← float.required value, ← denomination.optional scale⟩

/-- An endpoint and its raw weight. -/
def rawEntry : Codec (RawEntry String) where
  encode e := .record (("id", text.encode e.id) :: ("weight", float.encode e.weight.value) ::
    denomination.optionalMember "scale" e.weight.denomination)
  decode j := do
    let [id, weight, scale] ← fields? ["id", "weight", "scale"] j | none
    return ⟨← text.required id, ← float.required weight, ← denomination.optional scale⟩

/-- An endpoint and its count. -/
def fixedEntry : Codec (FixedEntry String) where
  encode e := .record [("id", text.encode e.id), ("fixed", count.encode e.count)]
  decode j := do
    let [id, fixed] ← fields? ["id", "fixed"] j | none
    return ⟨← text.required id, ← count.required fixed⟩

/-- A tier, as it is. -/
def tier : Codec Tier where
  encode t := .record [("id", text.encode t.id), ("entries", entry.list.encode t.entries)]
  decode j := do
    let [id, entries] ← fields? ["id", "entries"] j | none
    return ⟨← text.required id, ← entry.list.required entries⟩

/-- A commit plan. -/
def plan : Codec CommitPlan where
  encode p := .record [("tier_id", text.encode p.tierId),
    ("updates", fixedEntry.list.encode p.updates), ("removed", text.list.encode p.removed)]
  decode j := do
    let [id, updates, removed] ← fields? ["tier_id", "updates", "removed"] j | none
    return ⟨← text.required id, ← fixedEntry.list.required updates, ← text.list.required removed⟩

/-- A policy; both fields have defaults, and the tolerance is not checked. -/
def policy : Codec Policy where
  encode p := .record [("scale", scale.encode p.scale),
    ("percent_epsilon", float.encode p.percentEpsilon)]
  decode j := do
    let [size, epsilon] ← fields? ["scale", "percent_epsilon"] j | none
    return ⟨← scale.withDefault default size, ← float.withDefault Policy.defaultEpsilon epsilon⟩

/-- The section of the settings that is about commits. -/
def staging : Codec Bool where
  encode b := .record [("require_settled", bool.encode b)]
  decode j := do
    let [settled] ← fields? ["require_settled"] j | none
    bool.withDefault Settings.defaults.requireSettled settled

/-- Settings; both sections have defaults. -/
def settings : Codec Settings where
  encode s := .record [("rebalance", policy.encode s.policy),
    ("staging", staging.encode s.requireSettled)]
  decode j := do
    let [rebalance, settled] ← fields? ["rebalance", "staging"] j | none
    return ⟨← policy.withDefault Settings.defaults.policy rebalance,
      ← staging.withDefault Settings.defaults.requireSettled settled⟩

/-! ## Snapshots -/

/-- A catalogue is an object; of members with the same key the last one counts. -/
def catalogue (c : Codec α) : Codec (Catalogue α) where
  encode cat := .record (cat.toList.map fun (k, x) => (k, c.encode x))
  decode
    | .object members => do
      let pairs ← members.mapM fun (k, x) => do return (← k, ← c.decode x)
      return .ofList pairs
    | _ => none

/-- A snapshot of a store. -/
def store : Codec Store where
  encode s := .record [("scale", scale.encode s.scale),
    ("tiers", rawEntry.list.catalogue.encode s.tiers)]
  decode j := do
    let [size, tiers] ← fields? ["scale", "tiers"] j | none
    return ⟨← scale.required size, ← rawEntry.list.catalogue.required tiers⟩

end Codec

namespace Store

/-- The snapshot text of a store. -/
def snapshot (s : Store) : String := (Codec.store.encode s).pretty

/-- The store that a snapshot text describes. -/
def ofSnapshot (text : String) : Except StoreError Store :=
  match Codec.store.read text with
  | some s => .ok s
  | none => .error .malformed

end Store

end TierBudget
