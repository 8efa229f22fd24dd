import TierBudget.Decimal.Basic
import TierBudget.Yaml.Cursor
/-!
# Blocks of lines of YAML

A block is a text of whole lines, which are indented to the same column. In a folded block a line
break between two lines counts as a space, unless one of them begins with a blank.
-/

namespace TierBudget.Yaml

/-- What becomes of the line breaks at the end of a block. -/
inductive Ending where
  /-- They are dropped. -/
  | strip
  /-- One of them is kept. -/
  | clip
  /-- All of them are kept. -/
  | keep
deriving DecidableEq

/-- The ending that a sign stands for. -/
def Ending.ofChar? (c : Char) : Option Ending :=
  if c = '+' then some .keep else if c = '-' then some .strip else none

/-- The sign of an ending in front of the place, if there is one. -/
def scanEnding (c : Cursor) : Option Ending × Cursor :=
  match c.rest.head?.bind Ending.ofChar? with
  | some e => (some e, c.advance 1)
  | none => (none, c)

/-- The digit of an indentation in front of the place, which must not be zero; zero if there is
none. -/
def scanIndentation (c : Cursor) : Option (Nat × Cursor) :=
  match c.rest with
  | d :: _ =>
    if d = '0' then none
    else if d.isDigit then some (ofDigits [d], c.advance 1)
    else some (0, c)
  | [] => some (0, c)

/-- The ending and the indentation of a block, in either order. -/
def scanHeader (c : Cursor) : Option (Ending × Nat × Cursor) :=
  match scanEnding c with
  | (some e, c) => (scanIndentation c).map fun (n, c) => (e, n, c)
  | (none, c) => do
    let (n, c) ← scanIndentation c
    if n = 0 then return (.clip, 0, c)
    let (e, c) := scanEnding c
    return (e.getD .clip, n, c)

/-- The place of the first line with more than `column` spaces in front, and how many empty lines
come before it. -/
def skipEmptyLines (column : Nat) : Nat → Nat → Cursor → Nat × Cursor
  | 0, n, c => (n, c)
  | fuel + 1, n, c =>
    let c := c.skipSpaces column
    if (c.rest.head?.map isBreak).getD false then skipEmptyLines column fuel (n + 1) c.skipBreak
    else (n, c)

/-- The first line that is not empty, how many empty ones come before it, and the column of the
farthest place in all of them that only spaces stand before. -/
def findIndentation : Nat → Nat → Nat → Cursor → Nat × Nat × Cursor
  | 0, column, n, c => (column, n, c)
  | fuel + 1, column, n, c =>
    let c := c.skipSpaces (c.column + c.rest.length)
    let column := max column c.column
    if (c.rest.head?.map isBreak).getD false then findIndentation fuel column (n + 1) c.skipBreak
    else (column, n, c)

/-- The lines of a block that are being read. -/
structure Block where
  /-- The text in reverse. -/
  acc : List Char
  /-- Whether a line break followed the last line. -/
  broken : Bool
  /-- How many empty lines followed it. -/
  breaks : Nat
  /-- Whether the last line began with a blank. -/
  blank : Bool

/-- The line breaks in front of a line, in reverse. In a folded block a line break between lines
that do not begin with a blank is a space, or nothing in front of further ones. -/
def Block.between (b : Block) (folded blank : Bool) : List Char :=
  if folded && b.broken && !b.blank && !blank then
    if b.breaks = 0 then [' '] else List.replicate b.breaks '\n'
  else List.replicate (b.breaks + b.broken.toNat) '\n'

/-- The lines of a block that stand at the given column. -/
def scanLines (folded : Bool) (column : Nat) : Nat → Block → Cursor → Block × Cursor
  | 0, b, c => (b, c)
  | fuel + 1, b, c =>
    if c.column ≠ column || c.rest.isEmpty || (column = 0 && c.isAtMark '.') then (b, c)
    else
      let line := c.rest.takeWhile (!isBreak ·)
      let blank := (c.rest.head?.map isBlank).getD false
      let acc := line.reverse ++ b.between folded blank ++ b.acc
      let c := c.advance line.length
      if c.rest.isEmpty then (⟨acc, false, 0, blank⟩, c)
      else
        let (breaks, c) := skipEmptyLines column (c.rest.length + 1) 0 c.skipBreak
        scanLines folded column fuel ⟨acc, true, breaks, blank⟩ c

/-- The line breaks at the end of a block. -/
def Block.ending (b : Block) (e : Ending) (atEnd : Bool) : List Char :=
  let last := List.replicate (b.broken.toNat + atEnd.toNat) '\n'
  match e with
  | .strip => []
  | .clip => last
  | .keep => last ++ List.replicate b.breaks '\n'

/-- The text of a block without lines. -/
def emptyBlock (e : Ending) (broken : Bool) (breaks : Nat) : String :=
  match e, broken with
  | .strip, _ | _, false => ""
  | .clip, true => "\n"
  | .keep, true => .ofList (List.replicate (max breaks 1) '\n')

/-- A block of lines after the sign that begins it. `indent` is the column of the structure around
it. -/
def blockText? (folded : Bool) (indent : Int) (c : Cursor) : Option (String × Cursor) := do
  let start := c.line
  let (ending, increment, c) ← scanHeader c
  let c ← c.afterGap?
  if !endsLine c.rest then none
  let broken := !c.rest.isEmpty
  let c := if broken then c.skipBreak else c
  if c.rest.head? = some '\t' then none
  let (column, breaks, c) :=
    if increment = 0 then
      let (column, breaks, c) := findIndentation (c.rest.length + 1) 0 0 c
      (max column (max (indent + 1).toNat (if 0 < indent then 1 else 0)), breaks, c)
    else
      let column := (max indent 0).toNat + increment
      let (breaks, c) := skipEmptyLines column (c.rest.length + 1) 0 c
      (column, breaks, c)
  if c.rest.isEmpty then return (emptyBlock ending (c.line ≠ start && broken) breaks, c)
  if c.column < column && indent < c.column then none
  let (b, c) := scanLines folded column (c.rest.length + 1) ⟨[], false, breaks, false⟩ c
  let atEnd := c.rest.isEmpty && max column 1 ≤ c.column
  return (.ofList (b.acc.reverse ++ b.ending ending atEnd), c)

end TierBudget.Yaml
