import TierBudget.Yaml.Scan.Basic
/-!
# Documents and directives

The marks between documents, and the directives in front of one: its version, and what the handles
of tags stand for.
-/

namespace TierBudget.Yaml.Scan

/-- Ends all blocks; no key can follow on the same line. -/
def closeAll (s : Scan) : Option Scan := do
  let s ← (s.close (-1)).giveUp
  return { s with keyAllowed := false }

/-- The mark of a document. -/
def documentMark (s : Scan) (t : Token) : Option Scan := do
  let s ← s.closeAll
  return (s.push s.cursor t).goTo (s.cursor.advance 3)

/-- The end of a document, after which nothing stands on its line. -/
def documentEnd (s : Scan) : Option Scan := do
  let s ← (← s.documentMark .documentEnd).skipGap
  if endsLine s.cursor.rest then some s else none

/-- Whether a character may stand in a name. -/
def isNameChar (c : Char) : Bool := c.isAlphanum || c = '_' || c = '-'

/-- A handle of tags, and the rest. In a directive it is one mark or has one at both ends. -/
def scanHandle (directive : Bool) (cs : List Char) : Option (List Char × List Char) :=
  match cs with
  | '!' :: r =>
    let name := r.takeWhile isNameChar
    match r.drop name.length with
    | '!' :: r => some ('!' :: name ++ ['!'], r)
    | r => if directive && name ≠ [] then none else some ('!' :: name, r)
  | _ => none

/-- Whether a character may stand in the name of a resource. -/
def isUriChar (c : Char) : Bool :=
  c.isAlphanum || "-#;/?:@&=+$,_.!~*'()[]%".toList.contains c

/-- The number of a version: at most nine digits. -/
def scanVersionNumber (cs : List Char) : Option (List Char) :=
  let ds := cs.takeWhile Char.isDigit
  if ds.isEmpty || 9 < ds.length then none else some (cs.drop ds.length)

/-- The token of a directive after its name, and the rest. Unknown directives say nothing. -/
def scanDirective (name : List Char) (cs : List Char) : Option (Token × List Char) :=
  if name = ['Y', 'A', 'M', 'L'] then do
    match ← scanVersionNumber (cs.dropWhile isBlank) with
    | '.' :: r => return (.version, ← scanVersionNumber r)
    | _ => none
  else if name = ['T', 'A', 'G'] then do
    let (handle, r) ← scanHandle true (cs.dropWhile isBlank)
    let r := r.dropWhile isBlank
    let meaning := r.takeWhile isUriChar
    let r := r.drop meaning.length
    if meaning.isEmpty || !endsWord r then none
    return (.tagHandle (.ofList handle) (.ofList meaning), r)
  else some (.tagHandle "" "", cs.dropWhile (!isBreak ·))

/-- A directive, which is a line of its own. -/
def directive (s : Scan) : Option Scan := do
  let s ← s.closeAll
  let start := s.cursor
  let body := start.rest.drop 1
  let name := body.takeWhile isNameChar
  let r := body.drop name.length
  if name.isEmpty || !endsWord r then none
  let (t, r) ← scanDirective name r
  let c ← (start.advance (start.rest.length - r.length)).afterGap?
  match c.rest with
  | x :: _ => if isBreak x then return (s.push start t).goTo c.skipBreak else none
  | [] => return (s.push start t).goTo c

end TierBudget.Yaml.Scan
