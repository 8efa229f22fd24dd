import TierBudget.Json.Token
/-!
# Reading JSON

`Json.read` reads a text that holds one value and nothing else but blanks. Its doubles come from
scaling leading digits; `Json.readWith` takes them from any other rule.
-/

namespace TierBudget.Json

mutual

/-- The value in front of the tokens, and the rest. -/
def readValue : Nat → List Token → Option (Json × List Token)
  | 0, _ => none
  | _ + 1, .null :: r => some (.null, r)
  | _ + 1, .bool b :: r => some (.bool b, r)
  | _ + 1, .integer n :: r => some (.integer n, r)
  | _ + 1, .float x :: r => some (.float x, r)
  | _ + 1, .string s :: r => some (.string s, r)
  | _ + 1, .openBracket :: .closeBracket :: r => some (.array [], r)
  | fuel + 1, .openBracket :: r => readElements fuel [] r
  | _ + 1, .openBrace :: .closeBrace :: r => some (.object [], r)
  | fuel + 1, .openBrace :: r => readMembers fuel [] r
  | _ + 1, _ => none

/-- The rest of an array, after the elements `acc` in reverse. -/
def readElements : Nat → List Json → List Token → Option (Json × List Token)
  | 0, _, _ => none
  | fuel + 1, acc, ts =>
    match readValue fuel ts with
    | some (x, .comma :: r) => readElements fuel (x :: acc) r
    | some (x, .closeBracket :: r) => some (.array (x :: acc).reverse, r)
    | _ => none

/-- The rest of an object, after the members `acc` in reverse. -/
def readMembers : Nat → List (JsonString × Json) → List Token → Option (Json × List Token)
  | 0, _, _ => none
  | fuel + 1, acc, .string k :: .colon :: ts =>
    match readValue fuel ts with
    | some (x, .comma :: r) => readMembers fuel ((k, x) :: acc) r
    | some (x, .closeBrace :: r) => some (.object ((k, x) :: acc).reverse, r)
    | _ => none
  | _ + 1, _, _ => none

end

/-- The value that the tokens write, all of them together. Each bracket takes two calls and stands
for two tokens, so twice the number of tokens is fuel enough. -/
def ofTokens (ts : List Token) : Option Json :=
  match readValue (2 * ts.length + 1) ts with
  | some (x, []) => some x
  | _ => none

/-- The value that a text writes, its doubles being read in the given way. -/
def readWith (round : Numeral → Float) (s : String) : Option Json :=
  (Token.scan round s.toList).bind ofTokens

/-- The value that a text writes. -/
def read (s : String) : Option Json := readWith Numeral.scaledFloat s

end TierBudget.Json
