import TierBudget.Json.Printer
import TierBudget.Json.Token
import TierBudget.Tree.Basic
/-!
# YAML values

What a plain text means depends on what it looks like: a number, yes or no, nothing, or else itself.
A tag can ask for one of these, and a text that does not look like it is then of no use. A node
becomes a tree if its keys are single values that differ and its floats are numbers.
-/

namespace TierBudget.Yaml

/-- A value of a YAML document. -/
inductive Node where
  /-- A text that is not what its tag asks for. -/
  | unusable
  | nothing
  | boolean (b : Bool)
  | integer (n : Int)
  /-- A float as it is written. -/
  | real (s : String)
  | text (s : String)
  | sequence (elements : List Node)
  | mapping (entries : List (Node × Node))

instance : Inhabited Node := ⟨.nothing⟩

/-! ## Plain texts -/

/-- The integer of digits of a base after an optional sign, if it fits 64 bits. -/
def basedInt? (base : Nat) (cs : List Char) : Option Int := do
  let (sign, ds) := Numeral.scanSign cs
  if ds.isEmpty then none
  let n ← ds.foldlM (fun n c =>
    ((Json.hexValue? c).filter (· < base)).map (base * n + ·)) 0
  let n : Int := if sign = some '-' then -n else n
  (Tree.integer? n).map fun _ => n

/-- The integer after a mark of its base, or after a plus sign. -/
def markedInt? : List Char → Option Int
  | '0' :: 'x' :: r => basedInt? 16 r
  | '0' :: 'o' :: r => basedInt? 8 r
  | '+' :: r => basedInt? 10 r
  | _ => none

/-- Infinite floats and NaN. -/
def specialReals : List String :=
  [".inf", ".Inf", ".INF", "+.inf", "+.Inf", "+.INF", "-.inf", "-.Inf", "-.INF", ".nan", ".NaN",
    ".NAN"]

/-- Whether a text is a float. -/
def isReal (s : String) : Bool :=
  specialReals.contains s || (s.toList.any Char.isDigit && (readFloat s).isSome)

/-- What a plain text means. -/
def Node.ofPlain (s : String) : Node :=
  match (markedInt? s.toList).or (basedInt? 10 s.toList) with
  | some n => .integer n
  | none =>
    if s = "" || s = "~" || s = "null" then .nothing
    else if s = "true" then .boolean true
    else if s = "false" then .boolean false
    else if isReal s then .real s
    else .text s

/-- What a plain text with a tag of a standard type means. -/
def Node.ofTagged (type s : String) : Node :=
  if type = "bool" then
    if s = "true" then .boolean true else if s = "false" then .boolean false else .unusable
  else if type = "int" then ((basedInt? 10 s.toList).map .integer).getD .unusable
  else if type = "float" then if isReal s then .real s else .unusable
  else if type = "null" then if s = "~" || s = "null" then .nothing else .unusable
  else .text s

/-! ## Mappings -/

namespace Node

/-- Whether a node is of no use. -/
def isUnusable : Node → Bool
  | .unusable => true
  | _ => false

/-- The pairs of keys and values in a row of nodes. A key that is of no use is passed over, so that
the next node is a key. -/
def pairUp : List Node → List (Node × Node)
  | k :: v :: r => if k.isUnusable then pairUp (v :: r) else (k, v) :: pairUp r
  | _ => []

/-- A mapping of keys and values in a row. -/
def ofRow (nodes : List Node) : Node := .mapping (pairUp nodes)

/-! ## Trees -/

/-- The kind of a key and its text, for a key of a tree. -/
def key? : Node → Option (Nat × String)
  | .text s => some (0, s)
  | .integer n => some (1, .ofList (Json.writeInteger n))
  | .boolean b => some (2, if b then "true" else "false")
  | .real s => some (3, s)
  | _ => none

mutual

/-- The tree of a node. -/
def toTree? : Node → Option Tree
  | .unusable | .nothing => some .nothing
  | .boolean b => some (.boolean b)
  | .integer n => some (.integer n)
  | .real s => (readFloat s).map .float
  | .text s => some (.text s)
  | .sequence ns => (elementTrees? ns).map .array
  | .mapping es => do
    let entries ← entryTrees? es
    let keys := entries.map (·.1)
    if keys.eraseDups.length < keys.length then none
    else some (.ofPairs (entries.map fun ((_, k), t) => (k, t)))

/-- The trees of elements. -/
def elementTrees? : List Node → Option (List Tree)
  | [] => some []
  | n :: ns => do return (← toTree? n) :: (← elementTrees? ns)

/-- The keys and trees of entries. -/
def entryTrees? : List (Node × Node) → Option (List ((Nat × String) × Tree))
  | [] => some []
  | (k, v) :: es => do return (← key? k, ← toTree? v) :: (← entryTrees? es)

end

end Node

end TierBudget.Yaml
