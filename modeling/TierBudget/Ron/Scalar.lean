import TierBudget.Json.Token
import TierBudget.Text.Letters
import TierBudget.Tree.Basic
/-!
# Blanks, names, strings and numbers of RON

Each function here takes something off the front of a text and returns it with the rest. Numbers may
have underscores between digits, a base and a type at their end; strings may be raw, between as many
number signs as their text needs.
-/

namespace TierBudget.Ron

/-! ## Blanks -/

/-- Whether a character may stand between tokens. -/
def isBlank (c : Char) : Bool :=
  c = ' ' || ('\x09' ≤ c && c ≤ '\r') || c = '\u0085' || c = '\u200e' || c = '\u200f' ||
    c = '\u2028' || c = '\u2029'

/-- The text after the comments in asterisks that are open, one inside another. -/
def afterComments? : Nat → List Char → Option (List Char)
  | 0, cs => some cs
  | n + 1, '/' :: '*' :: r => afterComments? (n + 2) r
  | n + 1, '*' :: '/' :: r => afterComments? n r
  | n + 1, _ :: r => afterComments? (n + 1) r
  | _ + 1, [] => none

/-- The text without the blanks and comments in front of it, at most `fuel` runs of them. A slash
begins a comment. -/
def skipBlanks : Nat → List Char → Option (List Char)
  | 0, _ => none
  | fuel + 1, cs =>
    match cs.dropWhile isBlank with
    | '/' :: '/' :: r => skipBlanks fuel (r.dropWhile (· != '\n'))
    | '/' :: '*' :: r => (afterComments? 1 r).bind (skipBlanks fuel)
    | '/' :: _ => none
    | cs => some cs

/-- The text without the blanks and comments in front of it. -/
def skip (cs : List Char) : Option (List Char) := skipBlanks (cs.length + 1) cs

/-! ## Names -/

/-- Letters that begin no name. -/
def lesserRanges : Text.Ranges :=
  [(0x37a, 0x37a), (0xe33, 0xe33), (0xeb3, 0xeb3), (0x2e2f, 0x2e2f), (0xfc5e, 0xfc63),
    (0xfdfa, 0xfdfb), (0xfe70, 0xfe70), (0xfe72, 0xfe72), (0xfe74, 0xfe74), (0xfe76, 0xfe76),
    (0xfe78, 0xfe78), (0xfe7a, 0xfe7a), (0xfe7c, 0xfe7c), (0xfe7e, 0xfe7e), (0xff9e, 0xff9f)]

/-- Letters that are not part of any name. -/
def strangeRanges : Text.Ranges :=
  lesserRanges.filter fun r => !([0xe33, 0xeb3, 0xff9e].contains r.1)

/-- Other characters that begin names. -/
def furtherRanges : Text.Ranges := [(0x1885, 0x1886), (0x2118, 0x2118), (0x212e, 0x212e)]

/-- Other characters inside of names. -/
def innerRanges : Text.Ranges :=
  [(0xb7, 0xb7), (0x387, 0x387), (0x1369, 0x1371), (0x19da, 0x19da), (0x200c, 0x200d),
    (0x2118, 0x2118), (0x212e, 0x212e), (0x30fb, 0x30fb), (0xff65, 0xff65)]

/-- Whether a name can start with a character. -/
def isNameStart (c : Char) : Bool :=
  c = '_' || (Text.isLetter c && !lesserRanges.hold c) || furtherRanges.hold c

/-- Whether a name can go on with a character. -/
def isNameChar (c : Char) : Bool :=
  (Text.isInWord c && !strangeRanges.hold c) || innerRanges.hold c

/-- Whether a name after the mark of raw names can have a character. -/
def isRawNameChar (c : Char) : Bool := isNameChar c || c = '.' || c = '+' || c = '-'

/-- Whether a raw string is in front of a text. -/
def isRawString : List Char → Bool
  | 'r' :: r => (r.dropWhile (· = '#')).head? = some '\x22'
  | _ => false

/-- Whether bytes in quotes are in front of a text. -/
def isBytes : List Char → Bool
  | 'b' :: '\x22' :: _ | 'b' :: '\x27' :: _ => true
  | 'b' :: r => isRawString r
  | _ => false

/-- A name in front of a text. -/
def scanName : List Char → Option (String × List Char)
  | 'r' :: '#' :: r =>
    match r.takeWhile isRawNameChar with
    | [] => none
    | name => some (.ofList name, r.drop name.length)
  | c :: r =>
    if !isNameStart c || isRawString (c :: r) || isBytes (c :: r) then none
    else some (.ofList (c :: r.takeWhile isNameChar), r.dropWhile isNameChar)
  | [] => none

/-- The text after a word, if that is in front of it and goes no further. -/
def afterWord? (word : String) (cs : List Char) : Option (List Char) :=
  (word.toList.isPrefixOf? cs).filter fun r => !(r.head?.map isNameChar).getD false

/-! ## Strings and characters -/

/-- The character of at most `n` hexadecimal digits in front of a closing brace, of which `digits`
have been read. -/
def scanBraced : Nat → List Char → List Char → Option (Char × List Char)
  | _, digits, '\x7d' :: r => do
    if digits = [] then none
    let n ← Json.hexNumber? digits
    if n.isValidChar then some (.ofNat n, r) else none
  | n + 1, digits, c :: r => scanBraced n (digits ++ [c]) r
  | _, _, _ => none

/-- The character of an escape whose backslash has been read. -/
def scanEscape : List Char → Option (Char × List Char)
  | 'x' :: a :: b :: r => (Json.hexNumber? [a, b]).map (.ofNat ·, r)
  | 'u' :: '\x7b' :: r => scanBraced 6 [] r
  | c :: r =>
    if c = '\x22' || c = '\x27' || c = '\\' then some (c, r)
    else if c = 'n' then some ('\n', r)
    else if c = 'r' then some ('\r', r)
    else if c = 't' then some ('\t', r)
    else if c = '0' then some ('\x00', r)
    else none
  | [] => none

/-- The rest of a string; `acc` is in reverse. -/
def scanQuoted : Nat → List Char → List Char → Option (String × List Char)
  | 0, _, _ => none
  | _ + 1, acc, '\x22' :: r => some (.ofList acc.reverse, r)
  | fuel + 1, acc, '\\' :: r => do
    let (c, r) ← scanEscape r
    scanQuoted fuel (c :: acc) r
  | fuel + 1, acc, c :: r => scanQuoted fuel (c :: acc) r
  | _ + 1, _, [] => none

/-- The rest of a raw string, which a quote and the given characters end; `acc` is in reverse. -/
def scanRaw (ending : List Char) (acc : List Char) : List Char → Option (String × List Char)
  | [] => none
  | c :: r =>
    match if c = '\x22' then ending.isPrefixOf? r else none with
    | some r => some (.ofList acc.reverse, r)
    | none => scanRaw ending (c :: acc) r

/-- A string. -/
def scanString : List Char → Option (String × List Char)
  | '\x22' :: r => scanQuoted (r.length + 1) [] r
  | 'r' :: r =>
    let ending := r.takeWhile (· = '#')
    match r.drop ending.length with
    | '\x22' :: r => scanRaw ending [] r
    | _ => none
  | _ => none

/-- A character in single quotes. -/
def scanChar : List Char → Option (Char × List Char)
  | '\x27' :: r => do
    let (c, r) ← match r with
      | '\\' :: r => scanEscape r
      | c :: r => some (c, r)
      | [] => none
    match r with
    | '\x27' :: r => some (c, r)
    | _ => none
  | _ => none

/-! ## Numbers -/

/-- Whether a character may stand in an integer of any base. -/
def isIntegerChar (c : Char) : Bool := (Json.hexValue? c).isSome || c = '_'

/-- Whether a character may stand in a decimal number. -/
def isDecimalChar (c : Char) : Bool :=
  c.isDigit || c = 'e' || c = 'E' || c = '.' || c = '+' || c = '-' || c = '_'

/-- The base of an integer, and its digits with the rest. -/
def scanBase : List Char → Nat × List Char
  | '0' :: 'b' :: r => (2, r)
  | '0' :: 'o' :: r => (8, r)
  | '0' :: 'x' :: r => (16, r)
  | r => (10, r)

/-- The number that digits write, between which underscores may stand. -/
def digitsValue? (base : Nat) (ds : List Char) : Option Nat :=
  if ds.isEmpty || ds.head? = some '_' then none
  else (ds.filter (· != '_')).foldlM (fun n c =>
    ((Json.hexValue? c).filter (· < base)).map (base * n + ·)) 0

/-- The types that may be named at the end of an integer, with their least and greatest values. -/
def integerTypes : List (String × Int × Int) :=
  [("i8", -0x80, 0x7f), ("i16", -0x8000, 0x7fff), ("i32", -0x80000000, 0x7fffffff),
    ("i64", Int64.minValue.toInt, Int64.maxValue.toInt), ("u8", 0, 0xff), ("u16", 0, 0xffff),
    ("u32", 0, 0xffffffff), ("u64", 0, UInt64.size - 1)]

/-- The least and the greatest value of an integer, and the text after its type. -/
def scanType (cs : List Char) : (Int × Int) × List Char :=
  (integerTypes.findSome? fun (name, bounds) => (afterWord? name cs).map (bounds, ·)).getD
    ((Int64.minValue.toInt, UInt64.size - 1), cs)

/-- An integer as a tree: one beyond the signed range is a float. -/
def integerTree (n : Int) : Tree := (Tree.integer? n).getD (.float (.ofInt n))

/-- An integer in front of a text. -/
def scanInteger (cs : List Char) : Option (Tree × List Char) := do
  let (sign, r) := Numeral.scanSign cs
  let (base, r) := scanBase r
  let ds := r.takeWhile isIntegerChar
  let n ← digitsValue? base ds
  let n : Int := if sign = some '-' then -n else n
  let ((least, greatest), r) := scanType (r.drop ds.length)
  if least ≤ n ∧ n ≤ greatest then some (integerTree n, r) else none

/-- How many characters in front of a text could be those of an integer. -/
def integerLength (cs : List Char) : Nat :=
  let (_, digits) := scanBase (Numeral.scanSign cs).2
  cs.length - (digits.dropWhile isIntegerChar).length

/-- Whether every underscore stands after a digit or the mark of an exponent. -/
def underscoresAfterDigits : Bool → List Char → Bool
  | allowed, c :: r =>
    if c = '_' then allowed && underscoresAfterDigits allowed r
    else if c = '.' then underscoresAfterDigits false r
    else underscoresAfterDigits (allowed || c.isDigit || c = 'e' || c = 'E') r
  | _, [] => true

/-- The double of the characters of a decimal number. -/
def decimal? (cs : List Char) : Option Numeral :=
  if !underscoresAfterDigits false cs then none
  else match Numeral.scan (cs.filter (· != '_')) with
    | (n, []) =>
      if n.whole ++ n.fraction.getD [] ≠ [] && n.hasExponentDigits then some n else none
    | _ => none

/-- The number as a double of single precision. -/
def singleFloat (n : Numeral) : Float :=
  let d := n.toDecimal
  applySign n.isNegative
    (Float32.ofScientific d.coefficient (d.exponent < 0) d.exponent.natAbs).toFloat

/-- A decimal number in front of a text. -/
def scanDecimal (cs : List Char) : Option (Tree × List Char) := do
  let body := cs.takeWhile isDecimalChar
  let r := cs.drop body.length
  let n ← decimal? body
  match afterWord? "f32" r with
  | some r => return (.float (singleFloat n), r)
  | none => return (.float n.toFloat, (afterWord? "f64" r).getD r)

/-- An infinite number or NaN after its sign, perhaps with a type. -/
def scanSpecial (cs : List Char) : Option (Tree × List Char) :=
  let (sign, r) := Numeral.scanSign cs
  let read (word : String) (x : Float) : Option (Tree × List Char) :=
    (["", "f32", "f64"].findSome? fun type => afterWord? (word ++ type) r).map
      (.float (applySign (sign == some '-') x), ·)
  (read "inf" (1 / 0)).or (read "NaN" (0 / 0))

/-- The code of a character in single quotes after a `b`. It is an ASCII character, or any of the
first 256 as an escape of two digits. -/
def scanByte : List Char → Option (Tree × List Char)
  | 'b' :: '\x27' :: '\\' :: 'u' :: _ => none
  | 'b' :: r => do
    let (c, rest) ← scanChar r
    if c.toNat < 0x80 || r[1]? == some '\\' then some (.integer c.toNat, rest) else none
  | _ => none

/-- A number in front of a text. One that could be of either kind and is no integer is a decimal
number, if that takes up all of it. -/
def scanNumber (cs : List Char) : Option (Tree × List Char) :=
  let body := (Numeral.scanSign cs).2
  if (body.takeWhile isIntegerChar).length < (body.takeWhile isDecimalChar).length then scanDecimal cs
  else (scanByte cs).or <| (scanInteger cs).or <| (scanSpecial cs).or <|
    (scanDecimal cs).filter fun (_, r) => r.length + integerLength cs ≤ cs.length

end TierBudget.Ron
