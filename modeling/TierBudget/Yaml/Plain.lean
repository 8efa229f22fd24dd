import TierBudget.Yaml.Cursor
/-!
# Plain texts of YAML

A plain text ends where something else begins: a comment, a document, a colon before a value, a mark
of a collection in brackets, or a line that is indented less. Inside of it a line break counts as a
space, and each further one as itself (`Fold`).
-/

namespace TierBudget.Yaml

/-! ## Folded lines -/

/-- The blanks and line breaks since the last other character. -/
structure Fold where
  /-- The blanks of the line, before any line break, the last one first. -/
  blanks : List Char
  /-- Whether there was a line break that may be a space. -/
  broken : Bool
  /-- How many line breaks stand for themselves. -/
  breaks : Nat

namespace Fold

/-- Nothing. -/
def empty : Fold := ⟨[], false, 0⟩

/-- What the line breaks stand for. -/
def joined (f : Fold) : List Char :=
  if f.broken && f.breaks == 0 then [' '] else List.replicate f.breaks '\n'

/-- One more line break; `first` tells whether it is the first one since the last other character. -/
def addBreak (f : Fold) (first : Bool) : Fold :=
  if first then { f with blanks := [], broken := true } else { f with breaks := f.breaks + 1 }

end Fold

/-! ## Plain texts -/

/-- The characters in front that a plain text can have in a row. -/
def plainRun (inFlow : Bool) : List Char → List Char
  | [] => []
  | c :: r =>
    if isBlank c || isBreak c || (inFlow && isFlowMark c) then []
    else if c = ':' && (endsWord r || (inFlow && startsFlow r)) then []
    else c :: plainRun inFlow r

/-- The blanks and line breaks inside of a plain text. A tab must not indent a line that has
anything else. -/
def foldPlain (indent : Int) : Nat → Fold → Cursor → Option (Fold × Cursor)
  | 0, _, _ => none
  | fuel + 1, f, c =>
    match c.rest with
    | [] => some (f, c)
    | x :: _ =>
      if isBreak x then foldPlain indent fuel (f.addBreak (!c.fresh)) c.skipBreak
      else if !isBlank x then some (f, c)
      else if !c.fresh then foldPlain indent fuel { f with blanks := x :: f.blanks } c.skipBlank
      else if x = '\t' && c.column < indent then
        match c.afterGap? with
        | some c => if endsLine c.rest then foldPlain indent fuel f c else none
        | none => none
      else foldPlain indent fuel f c.skipBlank

/-- The rest of a plain text after `acc`, which is in reverse. -/
def scanPlain (inFlow : Bool) (indent : Int) : Nat → List Char → Fold → Cursor →
    Option (List Char × Cursor)
  | 0, _, _, _ => none
  | fuel + 1, acc, f, c =>
    if c.isAtDocument || c.rest.head? = some '#' then some (acc, c)
    else if inFlow && c.rest.head? = some '-' && startsFlow (c.rest.drop 1) then none
    else
      let run := plainRun inFlow c.rest
      let before := if c.fresh then f.joined else f.blanks.reverse
      let acc := if run = [] then acc else run.reverse ++ before.reverse ++ acc
      let f := if run = [] then f else .empty
      let c := c.advance run.length
      match c.rest with
      | [] => some (acc, c)
      | x :: _ =>
        if !isBlank x && !isBreak x then some (acc, c)
        else
          match foldPlain indent (c.rest.length + 1) f c with
          | none => none
          | some (f, c) =>
            if !inFlow && c.column < indent then some (acc, c)
            else scanPlain inFlow indent fuel acc f c

/-- A plain text, which has at least one character; inside of collections in brackets it must not
stand left of the indentation. -/
def plainText? (inFlow : Bool) (indent : Int) (c : Cursor) : Option (String × Cursor) :=
  if inFlow && c.column < indent then none
  else do
    let (acc, c) ← scanPlain inFlow indent (c.rest.length + 1) [] .empty c
    if acc.isEmpty then none else some (.ofList acc.reverse, c)

end TierBudget.Yaml
