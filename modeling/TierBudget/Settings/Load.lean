import TierBudget.Settings.Basic
import TierBudget.Settings.Environment
import TierBudget.Settings.Format
/-!
# Loading settings

Settings come in three layers: the defaults, a file, and the environment. A later layer is laid
over the earlier ones (`layered`), and only the values that are left are converted, so a value that
a later layer replaces need not make sense. `Settings.load` then checks the policy.
-/

namespace TierBudget

/-- Why settings cannot be loaded. -/
inductive SettingsError where
  /-- The file cannot be read, or a value cannot be converted. -/
  | unreadable
  /-- The values do not make a valid policy. -/
  | invalid (cause : PolicyError)
deriving DecidableEq

/-- The text of a settings error. -/
def SettingsError.message : SettingsError → String
  | .unreadable => "Failed to load configuration"
  | .invalid cause => s!"Invalid configuration: {cause.message}"

/-- The file of settings. -/
inductive SettingsFile where
  /-- No file is asked for. -/
  | absent
  /-- The file that is asked for cannot be read. -/
  | unreadable
  | text (format : Format) (s : String)
deriving DecidableEq

namespace SettingsFile

/-- The entries of the document in the file; no file has none. -/
def entries? : SettingsFile → Option (List (String × Tree))
  | .absent => some []
  | .unreadable => none
  | .text format s => format.read s

end SettingsFile

namespace Settings

/-! ## Converting values -/

/-- The meaning of a word for yes or no, in any case. -/
def switch? (s : String) : Option Bool :=
  let word := lowercase s
  if ["true", "yes", "on"].contains word then some true
  else if ["false", "no", "off"].contains word then some false
  else none

/-- A value as a whole number that is not negative. A float is rounded to the nearest one, a half
going up, and a switch is one or zero. -/
def whole? : Tree → Option Nat
  | .integer n => if 0 ≤ n then some n.toNat else none
  | .boolean b => some b.toNat
  | .float x => if x.isFinite && 0 ≤ x then some (Magnitude.ofFloat x).round else none
  | .text s => ((switch? s).map Bool.toNat).or (readNat s)
  | _ => none

/-- A value as a scale. -/
def scale? (v : Tree) : Option Scale := do
  let n ← whole? v
  if n < UInt32.size then Scale.ofCount? (.ofNat n) else none

/-- A value as a double. A switch is one or zero. -/
def number? : Tree → Option Float
  | .float x => some x
  | .integer n => some (applySign (n < 0) (.ofNat n.natAbs))
  | .boolean b => some (.ofNat b.toNat)
  | .text s => ((switch? s).map fun b => .ofNat b.toNat).or (readFloat s)
  | _ => none

/-- A value as a switch. Every number but zero turns it on. -/
def bool? : Tree → Option Bool
  | .boolean b => some b
  | .integer n => some (n != 0)
  | .float x => some (x != 0)
  | .text s => if s = "1" then some true else if s = "0" then some false else switch? s
  | _ => none

/-! ## Sections -/

/-- The setting of the given name in a section. An array gives the settings of a section in order,
`position` being the place of this one; any other value is no section. -/
def member? (name : String) (position : Nat) : Option Tree → Option (Option Tree)
  | none => some none
  | some (.table es) => some (es.lookup name)
  | some (.array vs) => some vs[position]?
  | some _ => none

/-- Converts a setting that has a default. -/
def orDefault {α : Type} (convert : Tree → Option α) (value : α) :
    Option Tree → Option α
  | none => some value
  | some v => convert v

/-- The settings in a tree, if all of them can be converted. -/
def ofTree? (root : Tree) : Option Settings := do
  let rebalance := root.entries.lookup "rebalance"
  let staging := root.entries.lookup "staging"
  let scale ← orDefault scale? default (← member? "scale" 0 rebalance)
  let epsilon ← orDefault number? Policy.defaultEpsilon (← member? "percent_epsilon" 1 rebalance)
  let settled ← orDefault bool? true (← member? "require_settled" 0 staging)
  return ⟨⟨scale, epsilon⟩, settled⟩

/-- The tree that stands for settings. -/
def toTree (s : Settings) : Tree :=
  .table [
    ("rebalance", .table [("scale", .integer s.policy.scale.size.toNat),
      ("percent_epsilon", .float s.policy.percentEpsilon)]),
    ("staging", .table [("require_settled", .boolean s.requireSettled)])]

/-! ## Layers -/

/-- The defaults under the entries of a file under the environment. -/
def layered (entries : List (String × Tree)) (vars : List Variable) : Tree :=
  (defaults.toTree.putAll entries).putAll (Environment.settings vars)

/-- The settings of a file and the environment. -/
def load (file : SettingsFile) (vars : List Variable) : Except SettingsError Settings :=
  match file.entries?.bind fun entries => ofTree? (layered entries vars) with
  | none => .error .unreadable
  | some s =>
    match s.policy.validate with
    | .error e => .error (.invalid e)
    | .ok () => .ok s

end Settings

end TierBudget
