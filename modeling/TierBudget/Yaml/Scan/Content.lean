import TierBudget.Yaml.Block
import TierBudget.Yaml.Quoted
import TierBudget.Yaml.Scan.Directive
/-!
# Texts and their properties

Texts of all forms, and what may stand in front of a value: an anchor, by which it is known further
on, and a tag, which names its type.
-/

namespace TierBudget.Yaml.Scan

/-- Whether a character may stand in the name of an anchor. -/
def isAnchorChar (c : Char) : Bool := !isBlank c && !isBreak c && !isFlowMark c && c != '\ufeff'

/-- The name after the sign of an anchor or an alias. -/
def anchorName (s : Scan) (t : String → Token) : Option Scan :=
  let s := { s.saveCandidate with keyAllowed := false }
  match (s.cursor.rest.drop 1).takeWhile isAnchorChar with
  | [] => none
  | name =>
    some ((s.push s.cursor (t (.ofList name))).goTo (s.cursor.advance (name.length + 1)))

/-- The characters of the end of a tag, and how many characters write them. Two hexadecimal digits
after a percent sign are one character. -/
def scanSuffix : List Char → Option (List Char × Nat)
  | [] => some ([], 0)
  | '%' :: a :: b :: r => do
    let n ← Json.hexNumber? [a, b]
    let (cs, k) ← scanSuffix r
    return (.ofNat n :: cs, k + 3)
  | c :: r =>
    if !isUriChar c || isFlowMark c || c = '!' then some ([], 0)
    else if c = '%' then none
    else do
      let (cs, k) ← scanSuffix r
      return (c :: cs, k + 1)

/-- The handle and the rest of a tag, and how many characters write it. -/
def scanTag (cs : List Char) : Option ((String × String) × Nat) :=
  match cs with
  | '!' :: '<' :: r =>
    let name := r.takeWhile isUriChar
    if (r.drop name.length).head? = some '>' then some (("", .ofList name), name.length + 3) else none
  | _ => do
    let (handle, r) ← scanHandle false cs
    let (suffix, k) ← scanSuffix r
    let n := handle.length + k
    if 2 ≤ handle.length && handle.getLast? = some '!' then
      if suffix.isEmpty then none else some ((.ofList handle, .ofList suffix), n)
    else
      match handle.drop 1 ++ suffix with
      | [] => some (("", "!"), n)
      | suffix => some (("!", .ofList suffix), n)

/-- A tag. -/
def tag (s : Scan) : Option Scan := do
  let s := { s.saveCandidate with keyAllowed := false }
  let ((handle, suffix), n) ← scanTag s.cursor.rest
  let c := s.cursor.advance n
  if endsWord c.rest || (s.inFlow && startsFlow c.rest) then
    return (s.push s.cursor (.tag handle suffix)).goTo c
  else none

/-- A block of lines. -/
def block (s : Scan) (folded : Bool) : Option Scan := do
  let s := { s.saveCandidate with keyAllowed := true }.inBlock
  let (text, c) ← blockText? folded s.indent (s.cursor.advance 1)
  return (s.push s.cursor (.text false text)).goTo c

/-- A text in quotes. -/
def quoted (s : Scan) : Option Scan := do
  let s := { s.saveCandidate with keyAllowed := false }
  let start := s.cursor
  let (text, c) ← quotedText? s.inFlow s.indent start
  let s ← skipBlanks (c.rest.length + 1) (s.goTo c)
  return { s with adjacent := s.cursor.index }.push start (.text false text)

/-- A plain text. -/
def plain (s : Scan) : Option Scan := do
  let s := { s.saveCandidate with keyAllowed := false }.inBlock
  let (text, c) ← plainText? s.inFlow (s.indent + 1) s.cursor
  let s := s.push s.cursor (.text true text)
  return { s with cursor := c, keyAllowed := s.keyAllowed || c.fresh }

end TierBudget.Yaml.Scan
