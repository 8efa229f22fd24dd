import TierBudget.Decimal.Scaled
/-!
# JSON values

A number written without point and exponent is an integer if it fits 64 bits, except `-0`; every
other number is a double. A string in a text may hold half of a surrogate pair as an escape, and then
stands for no text at all.
-/

namespace TierBudget

/-- What a quoted string stands for: its text, or nothing if an escape is half of a surrogate
pair. -/
abbrev JsonString := Option String

/-- A JSON value. -/
inductive Json where
  | null
  | bool (b : Bool)
  | integer (n : Int)
  /-- A number that is no integer. One too large for a double is infinite. -/
  | float (x : Float)
  | string (s : JsonString)
  | array (elements : List Json)
  /-- The members in the order of the text, which may repeat a key. -/
  | object (members : List (JsonString × Json))

namespace Json

instance : Inhabited Json := ⟨.null⟩

/-- A string that has a text. -/
def text (s : String) : Json := .string (some s)

/-- An object of members with texts for keys. -/
def record (members : List (String × Json)) : Json :=
  .object (members.map fun (k, v) => (some k, v))

/-- The text of a string. -/
def text? : Json → Option String
  | .string s => s
  | _ => none

/-- The elements of an array. -/
def elements? : Json → Option (List Json)
  | .array xs => some xs
  | _ => none

end Json

end TierBudget
