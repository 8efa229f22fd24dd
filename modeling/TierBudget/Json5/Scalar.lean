import TierBudget.Json.Token
import TierBudget.Text.Letters
import TierBudget.Tree.Basic
/-!
# Blanks, strings and numbers of JSON5

Each function here takes something off the front of a text and returns it with the rest. Strings
have single or double quotes and may go on after a backslash at the end of a line, numbers may be
hexadecimal, have a plus sign, or lack digits on one side of the point.
-/

namespace TierBudget.Json5

/-! ## Blanks -/

/-- Whether a character ends a line. -/
def isLineEnd (c : Char) : Bool := c = '\n' || c = '\r' || c = '\u2028' || c = '\u2029'

/-- Blanks besides line ends. -/
def blankRanges : Text.Ranges :=
  [(0x09, 0x09), (0x0b, 0x0c), (0x20, 0x20), (0xa0, 0xa0), (0x1680, 0x1680), (0x2000, 0x200a),
    (0x202f, 0x202f), (0x205f, 0x205f), (0x3000, 0x3000), (0xfeff, 0xfeff)]

/-- Whether a character may stand between tokens. -/
def isBlank (c : Char) : Bool := isLineEnd c || blankRanges.hold c

/-- The text after the end of a comment in asterisks, if it has an end. -/
def afterComment? : List Char → Option (List Char)
  | '*' :: '/' :: r => some r
  | _ :: r => afterComment? r
  | [] => none

/-- The text without the blanks and comments in front of it, at most `fuel` runs of them. -/
def skipBlanks : Nat → List Char → List Char
  | 0, cs => cs
  | fuel + 1, cs =>
    match cs.dropWhile isBlank with
    | '/' :: '/' :: r => skipBlanks fuel (r.dropWhile fun c => !isLineEnd c)
    | '/' :: '*' :: r =>
      match afterComment? r with
      | some r => skipBlanks fuel r
      | none => '/' :: '*' :: r
    | cs => cs

/-- The text without the blanks and comments in front of it. -/
def skip (cs : List Char) : List Char := skipBlanks (cs.length + 1) cs

/-! ## Strings -/

/-- The code point that exactly `n` hexadecimal digits write, and the rest. -/
def scanHex (n : Nat) (cs : List Char) : Option (Nat × List Char) :=
  if cs.length < n then none else (Json.hexNumber? (cs.take n)).map (·, cs.drop n)

/-- The character after `\u`. Two halves of a surrogate pair are one character. -/
def scanUnit (cs : List Char) : Option (Char × List Char) := do
  let (n, r) ← scanHex 4 cs
  if Json.isLow n then none
  else if Json.isHigh n then
    match r with
    | '\\' :: 'u' :: r =>
      let (m, r) ← scanHex 4 r
      if Json.isLow m then
        return (.ofNat (0x10000 + (n - 0xd800) * 0x400 + (m - 0xdc00)), r)
      else none
    | _ => none
  else return (.ofNat n, r)

/-- The character of a short escape; one without a meaning stands for itself. -/
def escapeOf (c : Char) : Char :=
  if c = 'b' then '\x08'
  else if c = 'f' then '\x0c'
  else if c = 'n' then '\n'
  else if c = 'r' then '\r'
  else if c = 't' then '\t'
  else if c = 'v' then '\x0b'
  else c

/-- The characters of an escape whose backslash has been read: none at the end of a line. -/
def scanEscape : List Char → Option (List Char × List Char)
  | '\r' :: '\n' :: r => some ([], r)
  | 'x' :: r => (scanHex 2 r).map fun (n, r) => ([.ofNat n], r)
  | 'u' :: r => (scanUnit r).map fun (c, r) => ([c], r)
  | '0' :: r => some (['\x00'], r)
  | c :: r =>
    if isLineEnd c then some ([], r) else if c.isDigit then none else some ([escapeOf c], r)
  | [] => none

/-- The rest of a string up to the closing quote; `acc` is in reverse. -/
def scanString (quote : Char) : Nat → List Char → List Char → Option (String × List Char)
  | 0, _, _ => none
  | _ + 1, _, [] => none
  | fuel + 1, acc, '\\' :: r => do
    let (cs, r) ← scanEscape r
    scanString quote fuel (cs ++ acc) r
  | fuel + 1, acc, c :: r =>
    if c = quote then some (.ofList acc.reverse, r)
    else if c = '\n' || c = '\r' then none
    else scanString quote fuel (c :: acc) r

/-! ## Names -/

/-- Whether a name can start with a character. -/
def isNameStart (c : Char) : Bool := Text.isLetter c || c = '$' || c = '_'

/-- Whether a name can go on with a character. -/
def isNameChar (c : Char) : Bool :=
  isNameStart c || Text.isInWord c || c = '\u200c' || c = '\u200d'

/-- The rest of a name; `acc` is in reverse. Escapes of characters may stand anywhere in it. -/
def scanNameRest : Nat → List Char → List Char → Option (String × List Char)
  | fuel + 1, acc, '\\' :: 'u' :: r => do
    let (c, r) ← scanUnit r
    scanNameRest fuel (c :: acc) r
  | fuel + 1, acc, c :: r =>
    if isNameChar c then scanNameRest fuel (c :: acc) r else some (.ofList acc.reverse, c :: r)
  | _, acc, cs => some (.ofList acc.reverse, cs)

/-- A key: a string or a name. -/
def scanKey : List Char → Option (String × List Char)
  | '\x22' :: r => scanString '\x22' (r.length + 1) [] r
  | '\x27' :: r => scanString '\x27' (r.length + 1) [] r
  | c :: r =>
    if isNameStart c || c = '\\' then
      (scanNameRest ((c :: r).length) [] (c :: r)).filter (·.1 != "")
    else none
  | [] => none

/-! ## Numbers -/

/-- An integer of hexadecimal digits, if it fits 32 bits and has no sign. -/
def hexInteger? (sign : Option Char) (ds : List Char) : Option Tree := do
  let n ← Json.hexNumber? ds
  if sign.isNone && n < UInt32.size then some (.integer n) else none

/-- Whether the digits before the point start with a zero only if they are one. -/
def isWhole (ds : List Char) : Bool := ds.head? != some '0' || ds == ['0']

/-- The value of a decimal number. -/
def decimal? (n : Numeral) : Option Tree :=
  let digits := n.whole ++ n.fraction.getD []
  if digits = [] || !isWhole n.whole || !n.hasExponentDigits then none
  else if n.isInteger then Tree.integer? n.toInt
  else Tree.finite? n.toFloat

/-- A number in front of a text. -/
def scanNumber (cs : List Char) : Option (Tree × List Char) :=
  match Numeral.scanSign cs with
  | (sign, '0' :: x :: r) =>
    if x = 'x' || x = 'X' then
      let ds := r.takeWhile fun c => (Json.hexValue? c).isSome
      if ds = [] then none else (hexInteger? sign ds).map (·, r.drop ds.length)
    else scanDecimal cs
  | (sign, 'I' :: 'n' :: 'f' :: 'i' :: 'n' :: 'i' :: 't' :: 'y' :: r) =>
    if sign = some '+' then none else some (.float (applySign sign.isSome (1 / 0)), r)
  | (sign, 'N' :: 'a' :: 'N' :: r) => if sign = some '+' then none else some (.float (0 / 0), r)
  | _ => scanDecimal cs
where
  /-- A decimal number in front of a text. -/
  scanDecimal (cs : List Char) : Option (Tree × List Char) :=
    let (n, r) := Numeral.scan cs
    (decimal? n).map (·, r)

end TierBudget.Json5
