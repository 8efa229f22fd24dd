import TierBudget.Tree.Overlay
/-!
# Settings from the environment

A variable whose name begins with `TIERWEIGHT_`, in any case, is a setting. The rest of its name is
the path of the setting, two underscores standing for a point, and its text is read as the simplest
kind of value that it can be.
-/

namespace TierBudget

/-- A variable of the environment: its name and its text. -/
abbrev Variable := String × String

namespace Environment

/-- What the name of a variable must begin with, in lower case. -/
def mark : String := "tierweight_"

/-- The text with a point for every two underscores. -/
def points : List Char → List Char
  | '_' :: '_' :: r => '.' :: points r
  | c :: r => c :: points r
  | [] => []

/-- The name of the path that a variable of the given name sets. -/
def path? (name : String) : Option String :=
  (mark.toList.isPrefixOf? (lowercase name).toList).map fun r => .ofList (points r)

/-- The value of a variable's text: a boolean in any case, an integer of 64 bits, a float, or else
the text itself. -/
def value (s : String) : Tree :=
  if lowercase s = "true" then .boolean true
  else if lowercase s = "false" then .boolean false
  else ((readInt s).bind Tree.integer?).getD <| ((readFloat s).map .float).getD (.text s)

/-- The settings of the environment: the names of paths with what is to be laid there. -/
def settings (vars : List Variable) : List (String × Tree) :=
  vars.filterMap fun (name, s) => (path? name).map (·, value s)

end Environment

end TierBudget
