import TierBudget.Json.Basic
/-!
# JSON tokens

`Token.scan` cuts a text into tokens and drops the blanks between them. Numbers have no leading zero
and digits on both sides of a point; strings hold no raw control characters.
-/

namespace TierBudget.Json

/-- The tokens of JSON texts. -/
inductive Token where
  | openBrace
  | closeBrace
  | openBracket
  | closeBracket
  | colon
  | comma
  | null
  | bool (b : Bool)
  | integer (n : Int)
  | float (x : Float)
  | string (s : JsonString)

/-- Whether a character may stand between tokens. -/
def isBlank (c : Char) : Bool := c = ' ' || c = '\n' || c = '\t' || c = '\r'

/-- The value of a hexadecimal digit. -/
def hexValue? (c : Char) : Option Nat :=
  if c.isDigit then some (c.toNat - '0'.toNat)
  else if 'a' ≤ c && c ≤ 'f' then some (c.toNat - 'a'.toNat + 10)
  else if 'A' ≤ c && c ≤ 'F' then some (c.toNat - 'A'.toNat + 10)
  else none

/-- The value of a run of hexadecimal digits. -/
def hexNumber? (cs : List Char) : Option Nat :=
  cs.foldlM (fun n c => (hexValue? c).map (16 * n + ·)) 0

/-- The code point of a short escape. -/
def escapeValue? (c : Char) : Option Nat :=
  if c = '\x22' || c = '\\' || c = '/' then some c.toNat
  else if c = 'b' then some 8
  else if c = 'f' then some 12
  else if c = 'n' then some 10
  else if c = 'r' then some 13
  else if c = 't' then some 9
  else none

/-- The code points of a string up to its closing quote, put in front of `acc` in reverse, and the
text after it. Escapes give single UTF-16 units, all else whole characters. -/
def scanUnits (acc : List Nat) : List Char → Option (List Nat × List Char)
  | [] => none
  | '\x22' :: r => some (acc.reverse, r)
  | '\\' :: 'u' :: a :: b :: c :: d :: r =>
    match hexNumber? [a, b, c, d] with
    | some n => scanUnits (n :: acc) r
    | none => none
  | '\\' :: e :: r =>
    match escapeValue? e with
    | some n => scanUnits (n :: acc) r
    | none => none
  | c :: r => if c.toNat < 0x20 || c = '\\' then none else scanUnits (c.toNat :: acc) r

/-- Whether a unit is the first half of a surrogate pair. -/
def isHigh (n : Nat) : Bool := 0xd800 ≤ n && n < 0xdc00

/-- Whether a unit is the second half of a surrogate pair. -/
def isLow (n : Nat) : Bool := 0xdc00 ≤ n && n < 0xe000

/-- Joins surrogate pairs, and puts the characters in front of `acc` in reverse; nothing if a half
stands alone. -/
def joinUnits (acc : List Char) : List Nat → Option (List Char)
  | [] => some acc.reverse
  | [n] => if isHigh n || isLow n then none else some (Char.ofNat n :: acc).reverse
  | n :: m :: r =>
    if isHigh n then
      if isLow m then joinUnits (.ofNat (0x10000 + (n - 0xd800) * 0x400 + (m - 0xdc00)) :: acc) r
      else none
    else if isLow n then none
    else joinUnits (.ofNat n :: acc) (m :: r)

/-- The string whose opening quote has been read, and the text after it. -/
def scanString (cs : List Char) : Option (JsonString × List Char) :=
  (scanUnits [] cs).map fun (units, r) => ((joinUnits [] units).map String.ofList, r)

/-- Whether a numeral is one of JSON's. -/
def isNumber (n : Numeral) : Bool :=
  n.sign != some '+' && n.whole != [] && (n.whole.head? != some '0' || n.whole == ['0']) &&
    n.fraction != some [] && n.hasExponentDigits

/-- Whether an integer fits 64 bits, with or without a sign. -/
def fitsWord (n : Int) : Bool := Int64.minValue.toInt ≤ n && n < UInt64.size

section

-- How the numbers that are no integers become doubles.
variable (round : Numeral → Float)

/-- The token of a number. -/
def numberToken (n : Numeral) : Token :=
  if n.isInteger && fitsWord n.toInt && !(n.isNegative && n.toInt == 0) then .integer n.toInt
  else .float (round n)

/-- The number in front of a text, and the rest. -/
def scanNumber (cs : List Char) : Option (Token × List Char) :=
  match Numeral.scan cs with
  | (n, r) => if isNumber n then some (numberToken round n, r) else none

/-- The token in front of a text that does not start with a blank, and the rest. -/
def scanToken : List Char → Option (Token × List Char)
  | '\x7b' :: r => some (.openBrace, r)
  | '\x7d' :: r => some (.closeBrace, r)
  | '[' :: r => some (.openBracket, r)
  | ']' :: r => some (.closeBracket, r)
  | ':' :: r => some (.colon, r)
  | ',' :: r => some (.comma, r)
  | 'n' :: 'u' :: 'l' :: 'l' :: r => some (.null, r)
  | 't' :: 'r' :: 'u' :: 'e' :: r => some (.bool true, r)
  | 'f' :: 'a' :: 'l' :: 's' :: 'e' :: r => some (.bool false, r)
  | '\x22' :: r => (scanString r).map fun (s, r) => (.string s, r)
  | cs => scanNumber round cs

/-- Scans up to `fuel` tokens and puts them in front of `acc` in reverse. -/
def scanTokens : Nat → List Token → List Char → Option (List Token)
  | 0, _, _ => none
  | fuel + 1, acc, cs =>
    match cs.dropWhile isBlank with
    | [] => some acc.reverse
    | cs =>
      match scanToken round cs with
      | some (t, r) => scanTokens fuel (t :: acc) r
      | none => none

/-- The tokens of a text; every token takes at least one character. -/
def Token.scan (cs : List Char) : Option (List Token) :=
  scanTokens round (cs.length + 1) [] cs

end

end TierBudget.Json
