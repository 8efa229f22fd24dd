import TierBudget.Json.Token
import TierBudget.Tree.Path
/-!
# Strings, keys and blanks of TOML

Each function here takes something off the front of a text and returns it with the rest.
-/

namespace TierBudget.Toml

/-- Whether a character may stand between the parts of a line. -/
def isBlank (c : Char) : Bool := c = ' ' || c = '\t'

/-- Whether a character may stand in a comment or a string as it is. -/
def isPlain (c : Char) : Bool := c = '\t' || (0x20 ≤ c.toNat && c.toNat ≠ 0x7f)

/-- The text without the blanks in front of it. -/
def skipBlanks (cs : List Char) : List Char := cs.dropWhile isBlank

/-- The text after a line break. -/
def newline? : List Char → Option (List Char)
  | '\n' :: r => some r
  | '\r' :: '\n' :: r => some r
  | _ => none

/-- The text without a comment in front of it. -/
def skipComment : List Char → List Char
  | '#' :: r => r.dropWhile isPlain
  | r => r

/-- The text after the end of a line, in front of which blanks and a comment may stand. -/
def lineEnd? (cs : List Char) : Option (List Char) :=
  match skipComment (skipBlanks cs) with
  | [] => some []
  | r => newline? r

/-- The text without the blanks, comments and line breaks in front of it, at most `fuel` of
them. -/
def skipLines : Nat → List Char → List Char
  | 0, cs => cs
  | fuel + 1, cs =>
    let cs := skipComment (skipBlanks cs)
    match newline? cs with
    | some r => skipLines fuel r
    | none => cs

/-- The character of a code point written in hexadecimal digits. -/
def charOfHex? (ds : List Char) : Option Char := do
  let n ← Json.hexNumber? ds
  if n.isValidChar then some (.ofNat n) else none

/-- The character of a short escape. -/
def escape? (c : Char) : Option Char :=
  if c = '\x22' || c = '\\' then some c
  else if c = 'b' then some '\x08'
  else if c = 't' then some '\t'
  else if c = 'n' then some '\n'
  else if c = 'f' then some '\x0c'
  else if c = 'r' then some '\r'
  else if c = 'e' then some '\x1b'
  else none

/-- The character that `n` hexadecimal digits in front of a text write. -/
def scanCodePoint (n : Nat) (cs : List Char) : Option (Char × List Char) :=
  if cs.length < n then none else (charOfHex? (cs.take n)).map (·, cs.drop n)

/-- The character of an escape whose backslash has been read. -/
def scanEscape : List Char → Option (Char × List Char)
  | 'x' :: r => scanCodePoint 2 r
  | 'u' :: r => scanCodePoint 4 r
  | 'U' :: r => scanCodePoint 8 r
  | c :: r => (escape? c).map (·, r)
  | [] => none

/-- The rest of a string on one line, whose opening quote has been read. -/
def scanBasic : Nat → List Char → List Char → Option (String × List Char)
  | 0, _, _ => none
  | _ + 1, acc, '\x22' :: r => some (.ofList acc.reverse, r)
  | fuel + 1, acc, '\\' :: r => do
    let (c, r) ← scanEscape r
    scanBasic fuel (c :: acc) r
  | fuel + 1, acc, c :: r => if isPlain c then scanBasic fuel (c :: acc) r else none
  | _ + 1, _, [] => none

/-- The rest of a string without escapes on one line. -/
def scanLiteral (cs : List Char) : Option (String × List Char) :=
  let body := cs.takeWhile fun c => c ≠ '\x27' && isPlain c
  match cs.drop body.length with
  | '\x27' :: r => some (.ofList body, r)
  | _ => none

/-- How many of the quotes in a row belong to a string of several lines that they end: two at most,
in front of the three that close it. Fewer than three close nothing. -/
def closing? (quotes : Nat) : Option Nat := if quotes < 3 then none else some (min (quotes - 3) 2)

/-- The rest of a string of several lines. A backslash at the end of a line takes out the blanks and
line breaks up to the next text. -/
def scanLongBasic : Nat → List Char → List Char → Option (String × List Char)
  | 0, _, _ => none
  | _ + 1, _, [] => none
  | fuel + 1, acc, '\x22' :: r =>
    let quotes := (r.takeWhile (· = '\x22')).length + 1
    match closing? quotes with
    | some n => some (.ofList (List.replicate n '\x22' ++ acc).reverse, r.drop (n + 2))
    | none => scanLongBasic fuel ('\x22' :: acc) r
  | fuel + 1, acc, '\\' :: r =>
    match newline? (skipBlanks r) with
    | some r =>
      scanLongBasic fuel acc (r.dropWhile fun c => isBlank c || c = '\n' || c = '\r')
    | none => do
      let (c, r) ← scanEscape r
      scanLongBasic fuel (c :: acc) r
  | fuel + 1, acc, c :: r =>
    match newline? (c :: r) with
    | some r => scanLongBasic fuel ('\n' :: acc) r
    | none => if isPlain c then scanLongBasic fuel (c :: acc) r else none

/-- The rest of a string of several lines without escapes. -/
def scanLongLiteral : Nat → List Char → List Char → Option (String × List Char)
  | 0, _, _ => none
  | _ + 1, _, [] => none
  | fuel + 1, acc, c :: r =>
    if c = '\x27' then
      match closing? ((r.takeWhile (· = '\x27')).length + 1) with
      | some n => some (.ofList (List.replicate n '\x27' ++ acc).reverse, r.drop (n + 2))
      | none => scanLongLiteral fuel (c :: acc) r
    else
      match newline? (c :: r) with
      | some r => scanLongLiteral fuel ('\n' :: acc) r
      | none => if isPlain c then scanLongLiteral fuel (c :: acc) r else none

/-- The text after the line break that may follow the opening quotes of several lines. -/
def skipFirstBreak (cs : List Char) : List Char := (newline? cs).getD cs

/-- A string of any of the four forms. -/
def scanText : List Char → Option (String × List Char)
  | '\x22' :: '\x22' :: '\x22' :: r => scanLongBasic (r.length + 1) [] (skipFirstBreak r)
  | '\x27' :: '\x27' :: '\x27' :: r => scanLongLiteral (r.length + 1) [] (skipFirstBreak r)
  | '\x22' :: r => scanBasic (r.length + 1) [] r
  | '\x27' :: r => scanLiteral r
  | _ => none

/-- A single key: a string on one line, or a run of key characters. -/
def scanKey : List Char → Option (String × List Char)
  | '\x22' :: r => scanBasic (r.length + 1) [] r
  | '\x27' :: r => scanLiteral r
  | cs =>
    match cs.takeWhile Path.isKeyChar with
    | [] => none
    | k => some (.ofList k, cs.drop k.length)

/-- Keys with points between them, put in front of `acc` in reverse. -/
def scanPath : Nat → List String → List Char → Option (List String × List Char)
  | 0, _, _ => none
  | fuel + 1, acc, cs => do
    let (k, r) ← scanKey cs
    match skipBlanks r with
    | '.' :: r => scanPath fuel (k :: acc) (skipBlanks r)
    | r => some ((k :: acc).reverse, r)

/-- How deep a key may lead into tables, and how deep values may be nested. -/
def depthLimit : Nat := 80

/-- A key of one or more parts; the rest does not start with a blank. -/
def scanDotted (cs : List Char) : Option (List String × List Char) :=
  (scanPath (cs.length + 1) [] cs).filter (·.1.length ≤ depthLimit)

end TierBudget.Toml
