import TierBudget.Decimal.Layout
import TierBudget.Json.Basic
/-!
# Writing JSON

One writer serves both forms: `Spacing.compact` puts nothing between tokens, `Spacing.pretty` one
element or member a line, indented by two spaces per level. A double that is not finite is written
as `null`.
-/

namespace TierBudget.Json

/-- What stands between tokens. -/
structure Spacing where
  /-- What opens a line at the given depth. -/
  line : Nat → List Char
  /-- What stands between a key and its value. -/
  colon : List Char

/-- No blanks. -/
def Spacing.compact : Spacing := ⟨fun _ => [], [':']⟩

/-- A line for each element and member. -/
def Spacing.pretty : Spacing := ⟨fun d => '\n' :: List.replicate (2 * d) ' ', [':', ' ']⟩

/-- The lower-case hexadecimal digit of a number below sixteen. -/
def hexDigit (n : Nat) : Char := Nat.digitChar n

/-- A character inside quotes: quotes, backslashes and controls are escaped. -/
def writeChar (c : Char) : List Char :=
  if c = '\x22' then ['\\', '\x22']
  else if c = '\\' then ['\\', '\\']
  else if c = '\x08' then ['\\', 'b']
  else if c = '\x0c' then ['\\', 'f']
  else if c = '\n' then ['\\', 'n']
  else if c = '\r' then ['\\', 'r']
  else if c = '\t' then ['\\', 't']
  else if c.toNat < 0x20 then
    ['\\', 'u', '0', '0', hexDigit (c.toNat / 16), hexDigit (c.toNat % 16)]
  else [c]

/-- A string; one that stands for no text is written as half of a surrogate pair. -/
def writeString : JsonString → List Char
  | some s => '\x22' :: s.toList.flatMap writeChar ++ ['\x22']
  | none => ['\x22', '\\', 'u', 'd', '8', '0', '0', '\x22']

/-- A whole number. -/
def writeInteger (n : Int) : List Char :=
  if n < 0 then '-' :: digitsOf n.natAbs else digitsOf n.natAbs

/-- A double. -/
def writeFloat (x : Float) : List Char :=
  if x.isFinite then Layout.json.writeFinite x else ['n', 'u', 'l', 'l']

mutual

/-- A value at a depth. -/
def writeValue (sp : Spacing) (depth : Nat) : Json → List Char
  | .null => ['n', 'u', 'l', 'l']
  | .bool true => ['t', 'r', 'u', 'e']
  | .bool false => ['f', 'a', 'l', 's', 'e']
  | .integer n => writeInteger n
  | .float x => writeFloat x
  | .string s => writeString s
  | .array [] => ['[', ']']
  | .array (x :: xs) =>
    '[' :: sp.line (depth + 1) ++ writeValue sp (depth + 1) x ++ writeElements sp (depth + 1) xs ++
      sp.line depth ++ [']']
  | .object [] => ['\x7b', '\x7d']
  | .object ((k, x) :: ms) =>
    '\x7b' :: sp.line (depth + 1) ++ writeString k ++ sp.colon ++ writeValue sp (depth + 1) x ++
      writeMembers sp (depth + 1) ms ++ sp.line depth ++ ['\x7d']

/-- The elements after the first. -/
def writeElements (sp : Spacing) (depth : Nat) : List Json → List Char
  | [] => []
  | x :: xs => ',' :: sp.line depth ++ writeValue sp depth x ++ writeElements sp depth xs

/-- The members after the first. -/
def writeMembers (sp : Spacing) (depth : Nat) : List (JsonString × Json) → List Char
  | [] => []
  | (k, x) :: ms =>
    ',' :: sp.line depth ++ writeString k ++ sp.colon ++ writeValue sp depth x ++
      writeMembers sp depth ms

end

/-- The text of a value. -/
def write (sp : Spacing) (j : Json) : String := .ofList (writeValue sp 0 j)

/-- The text without blanks. -/
def compact (j : Json) : String := j.write .compact

/-- The text with a line for each element and member. -/
def pretty (j : Json) : String := j.write .pretty

end TierBudget.Json
