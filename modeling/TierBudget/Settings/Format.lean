import TierBudget.Ini.Document
import TierBudget.Json.Tree
import TierBudget.Json5.Document
import TierBudget.Ron.Document
import TierBudget.Toml.Document
import TierBudget.Yaml.Document
/-!
# Formats of settings files

A file of settings is a document in one of several formats, which its name ends in. Whatever the
format, the document is a table.
-/

namespace TierBudget

/-- A format of settings files. -/
inductive Format where
  | toml
  | json
  | yaml
  | ini
  | ron
  | json5
deriving DecidableEq

namespace Format

/-- All formats, in the order in which they are looked for. -/
def all : List Format := [.toml, .json, .yaml, .ini, .ron, .json5]

/-- What the names of files end in, after a point. -/
def extensions : Format → List String
  | .toml => ["toml"]
  | .json => ["json"]
  | .yaml => ["yaml", "yml"]
  | .ini => ["ini"]
  | .ron => ["ron"]
  | .json5 => ["json5"]

/-- The format of the files whose names have the given end. -/
def ofExtension? (ending : String) : Option Format := all.find? (·.extensions.contains ending)

/-- The tree of a document. -/
def readTree : Format → String → Option Tree
  | .toml, s => (Toml.read s).map .table
  | .json, s => Json.readTree s
  | .yaml, s => Yaml.read s
  | .ini, s => Ini.read s
  | .ron, s => Ron.read s
  | .json5, s => Json5.read s

/-- The text without the byte order mark that may stand in front of it. -/
def dropMark (s : String) : String :=
  match s.toList with
  | '\ufeff' :: r => .ofList r
  | _ => s

/-- The entries of a document that is a table. -/
def read (f : Format) (s : String) : Option (List (String × Tree)) :=
  match f.readTree (dropMark s) with
  | some (.table es) => some es
  | _ => none

end Format

end TierBudget
