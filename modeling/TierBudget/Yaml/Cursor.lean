/-!
# Places in a YAML text

The structure of a YAML text lies in its lines and columns. A `Cursor` is a place in a text that
knows both, together with what is left of the text. A NUL character ends a text.
-/

namespace TierBudget.Yaml

/-! ## Characters -/

/-- Whether a character ends a line. -/
def isBreak (c : Char) : Bool := c = '\n' || c = '\r'

/-- Whether a character is a blank inside a line. -/
def isBlank (c : Char) : Bool := c = ' ' || c = '\t'

/-- Whether a character separates the parts of a collection in brackets or closes one. -/
def isFlowMark (c : Char) : Bool := c = ',' || c = '[' || c = ']' || c = '\x7b' || c = '\x7d'

/-- Whether a line or the text ends at what comes next. -/
def endsLine : List Char → Bool
  | c :: _ => isBreak c
  | [] => true

/-- Whether a blank comes next, or a line or the text ends. -/
def endsWord : List Char → Bool
  | c :: _ => isBlank c || isBreak c
  | [] => true

/-- Whether a mark of collections in brackets comes next. -/
def startsFlow : List Char → Bool
  | c :: _ => isFlowMark c
  | [] => false

/-! ## Cursors -/

/-- A place in a text. -/
structure Cursor where
  rest : List Char
  /-- How many characters stand before this place. -/
  index : Nat
  line : Nat
  column : Nat
  /-- Whether only blanks stand before this place in its line. -/
  fresh : Bool

namespace Cursor

/-- The start of a text. -/
def ofText (s : String) : Cursor := ⟨s.toList.takeWhile (· != '\x00'), 0, 0, 0, true⟩

/-- The place after `n` characters of a line. -/
def advance (c : Cursor) (n : Nat) : Cursor :=
  ⟨c.rest.drop n, c.index + n, c.line, c.column + n, c.fresh && n == 0⟩

/-- The place after a blank. -/
def skipBlank (c : Cursor) : Cursor :=
  ⟨c.rest.drop 1, c.index + 1, c.line, c.column + 1, c.fresh⟩

/-- The place after a line break. -/
def skipBreak (c : Cursor) : Cursor :=
  let n := match c.rest with
    | '\r' :: '\n' :: _ => 2
    | _ => 1
  ⟨c.rest.drop n, c.index + n, c.line + 1, 0, true⟩

/-- The place after the characters in front that meet a condition; they are on one line. -/
def advanceWhile (c : Cursor) (p : Char → Bool) : Cursor := c.advance (c.rest.takeWhile p).length

/-- The place after the spaces in front, but not beyond the given column. -/
def skipSpaces (c : Cursor) (column : Nat) : Cursor :=
  (List.range ((c.rest.takeWhile (· = ' ')).take (column - c.column)).length).foldl
    (fun c _ => c.skipBlank) c

/-- The place at the end of a comment. -/
def skipComment (c : Cursor) : Cursor := c.advanceWhile (!isBreak ·)

/-- Whether three equal characters stand at the start of a line, as a word. -/
def isAtMark (c : Cursor) (mark : Char) : Bool :=
  c.column == 0 && c.rest.take 3 == [mark, mark, mark] && endsWord (c.rest.drop 3)

/-- Whether a document begins or ends here. -/
def isAtDocument (c : Cursor) : Bool := c.isAtMark '-' || c.isAtMark '.'

/-- The end of the text after the last line. -/
def toEnd (c : Cursor) : Cursor :=
  if c.column = 0 then c else ⟨c.rest, c.index, c.line + 1, 0, c.fresh⟩

end Cursor

/-! ## Blanks up to the end of a line -/

/-- The blanks that were found in a line. -/
structure Gap where
  tabs : Bool
  spaces : Bool

/-- The place after the blanks in front, and after the comment that may follow them but not stand
without them. -/
def skipGap : Nat → Gap → Cursor → Option (Gap × Cursor)
  | 0, g, c => some (g, c)
  | fuel + 1, g, c =>
    match c.rest with
    | ' ' :: _ => skipGap fuel { g with spaces := true } c.skipBlank
    | '\t' :: _ => skipGap fuel { g with tabs := true } c.skipBlank
    | '#' :: _ => if g.tabs || g.spaces then some (g, c.skipComment) else none
    | _ => some (g, c)

/-- The place after the blanks of a line and a comment, and which blanks they are. -/
def Cursor.gap? (c : Cursor) : Option (Gap × Cursor) := skipGap (c.rest.length + 1) ⟨false, false⟩ c

/-- The place after the blanks of a line and a comment. -/
def Cursor.afterGap? (c : Cursor) : Option Cursor := c.gap?.map (·.2)

end TierBudget.Yaml
