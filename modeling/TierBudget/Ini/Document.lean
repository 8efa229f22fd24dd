import TierBudget.Json.Token
import TierBudget.Text.Spaces
import TierBudget.Tree.Basic
/-!
# INI documents

A document is a list of settings `key = value`, in which a name in brackets begins a section. Values
are texts. A section takes the place of an earlier one of the same name, and a setting that of an
earlier one in its section; the settings before the first section stand for themselves. A line that
starts with a semicolon or a number sign is a comment.
-/

namespace TierBudget.Ini

/-! ## Texts -/

/-- The character of four hexadecimal digits, the first of which may be a plus sign. -/
def charOfHex? (ds : List Char) : Option Char := do
  let ds := match ds with
    | '+' :: r => r
    | r => r
  let n ← Json.hexNumber? ds
  if n.isValidChar then some (.ofNat n) else none

/-- The characters of a short escape: none for a line break, and the character itself where it has
no meaning. -/
def escapeOf (c : Char) : List Char :=
  if c = '0' then ['\x00']
  else if c = 'a' then ['\x07']
  else if c = 'b' then ['\x08']
  else if c = 't' then ['\t']
  else if c = 'r' then ['\r']
  else if c = 'n' then ['\n']
  else if c = '\n' then []
  else [c]

/-- What the front of a text stands for, which a backslash may escape, and the rest. -/
def scanChar : List Char → Option (List Char × List Char)
  | '\\' :: 'x' :: a :: b :: c :: d :: r => (charOfHex? [a, b, c, d]).map ([·], r)
  | '\\' :: c :: r => if c = 'x' then none else some (escapeOf c, r)
  | '\\' :: [] => none
  | c :: r => some ([c], r)
  | [] => none

/-- The text up to one of the characters in `stops`; `acc` is in reverse. -/
def scanUntil (stops : List Char) : Nat → List Char → List Char → Option (List Char × List Char)
  | 0, _, _ => none
  | _ + 1, _, [] => none
  | fuel + 1, acc, c :: r =>
    if stops.contains c then some (acc.reverse, c :: r)
    else do
      let (cs, r) ← scanChar (c :: r)
      scanUntil stops fuel (cs ++ acc) r

/-- The text up to the end of the line or of the document; `acc` is in reverse. -/
def scanLine : Nat → List Char → List Char → Option (List Char × List Char)
  | 0, _, _ => none
  | _ + 1, acc, [] => some (acc.reverse, [])
  | fuel + 1, acc, c :: r =>
    if c = '\n' || c = '\r' then some (acc.reverse, c :: r)
    else do
      let (cs, r) ← scanChar (c :: r)
      scanLine fuel (cs ++ acc) r

/-- Whether a character is a quote. -/
def isQuote (c : Char) : Bool := c = '\x22' || c = '\x27'

/-- Quoted parts put after `parts`, and after them the rest of the line without the blanks at its
end. -/
def scanParts : Nat → List Char → List Char → Option (String × List Char)
  | 0, _, _ => none
  | fuel + 1, parts, cs =>
    match cs with
    | [] => some (.ofList parts, [])
    | c :: r =>
      if isQuote c then do
        let (part, r) ← scanUntil [c] (r.length + 1) [] r
        scanParts fuel (parts ++ part) (r.drop 1)
      else do
        let (rest, r) ← scanLine (cs.length + 1) [] cs
        return (.ofList (parts ++ Text.trimEnd rest), r)

/-- A value: either quoted parts and what follows them, or a line without the blanks at its ends. -/
def scanValue (cs : List Char) : Option (String × List Char) :=
  if (cs.head?.map isQuote).getD false then scanParts (cs.length + 1) [] cs
  else do
    let (line, r) ← scanLine (cs.length + 1) [] cs
    return (.ofList (Text.trim line), r)

/-! ## Documents -/

/-- A section that is being read: its name and its settings, the last one first. Settings before the
first section have no name. -/
structure Section where
  name : Option String
  settings : List (String × Tree)

/-- The settings of a section, or the section as a setting. -/
def Section.toPairs (s : Section) : List (String × Tree) :=
  match s.name with
  | none => s.settings.reverse
  | some name => [(name, .ofPairs s.settings.reverse)]

/-- The blanks in front of a text passed over: whether a line begins there, and the rest. -/
def skipSpaces (lineStart : Bool) : List Char → Bool × List Char
  | c :: r => if Text.isSpace c then skipSpaces (c = '\n') r else (lineStart, c :: r)
  | [] => (lineStart, [])

/-- Whether a character stands between a key and its value. -/
def isEquals (c : Char) : Bool := c = '=' || c = ':'

/-- Whether a blank does not end a line. -/
def isInnerSpace (c : Char) : Bool := Text.isSpace c && c != '\n' && c != '\r'

/-- Reads sections, the last one first. `key` is the key whose value comes next. -/
def readSections : Nat → Section → List Section → String → Bool → List Char →
    Option (List Section)
  | 0, _, _, _, _, _ => none
  | fuel + 1, current, before, key, lineStart, cs =>
    match skipSpaces lineStart cs with
    | (_, []) => some (current :: before)
    | (lineStart, c :: r) =>
      if c = ';' || c = '#' then
        if lineStart then
          readSections fuel current before key true ((r.dropWhile (· != '\n')).drop 1)
        else none
      else if c = '[' then do
        let (name, r) ← scanUntil [']'] (r.length + 1) [] r
        readSections fuel ⟨some (.ofList (Text.trim name)), []⟩ (current :: before) key false
          (r.drop 1)
      else if isEquals c then
        if key = "" then none
        else do
          let (value, r) ← scanValue (r.dropWhile isInnerSpace)
          readSections fuel { current with settings := (key, .text value) :: current.settings }
            before "" false r
      else do
        let (name, r) ← scanUntil ['=', ':'] ((c :: r).length + 1) [] (c :: r)
        readSections fuel current before (.ofList (Text.trim name)) false r

/-- The tree that a text writes. -/
def read (s : String) : Option Tree := do
  let sections ← readSections (s.length + 1) ⟨none, []⟩ [] "" true s.toList
  return .ofPairs (sections.reverse.flatMap Section.toPairs)

end TierBudget.Ini
