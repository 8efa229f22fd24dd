import TierBudget.Yaml.Cursor
import TierBudget.Yaml.Token
/-!
# Reading tokens

A `Scan` is a YAML text of which some tokens have been read. It knows the columns of the blocks that
are open, and the places where a key may have begun.

A key without a mark of its own is a *candidate* until its colon comes. Outside of brackets it must
come on the same line and within `keyLength` characters; where nothing but a key can stand, it must
come at all.
-/

namespace TierBudget.Yaml

/-- How many characters can stand between the start of a key without a mark and its colon. -/
def keyLength : Nat := 1024

/-- How many brackets can be open. -/
def flowLimit : Nat := 255

/-- A column that lines are indented to. -/
structure Level where
  /-- The column of the lines around. -/
  outer : Int
  /-- Whether a block begins here; else it is only a column more than a block has. -/
  isBlock : Bool

/-- A place where a key may begin. -/
structure Candidate where
  possible : Bool
  /-- Whether nothing but a key can stand here. -/
  required : Bool
  /-- How many tokens stand in front of it. -/
  token : Nat
  place : Cursor

/-- A text of which some tokens have been read. -/
structure Scan where
  cursor : Cursor
  /-- The column of the innermost lines. -/
  indent : Int
  /-- The columns that lines are indented to, the innermost first. -/
  levels : List Level
  /-- Whether a key can begin here. -/
  keyAllowed : Bool
  /-- The last candidate of each open bracket, the innermost first, and that outside of brackets. -/
  candidates : List Candidate
  /-- The tokens with their columns, the last one first. -/
  tokens : List (Token × Nat)
  /-- The place after a text in quotes or a collection in brackets, where a colon needs no blank. -/
  adjacent : Nat
  /-- Whether a mapping in brackets has begun, and no mapping without brackets inside of others. -/
  inMapping : Bool
  /-- For each open sequence in brackets, whether a mapping without brackets has begun in it. -/
  pairs : List Bool

namespace Scan

/-- Whether brackets are open. -/
def inFlow (s : Scan) : Bool := 1 < s.candidates.length

/-- The scan with its place moved. -/
def goTo (s : Scan) (c : Cursor) : Scan := { s with cursor := c }

/-- The scan with one more token, whose place is given. -/
def push (s : Scan) (place : Cursor) (t : Token) : Scan :=
  { s with tokens := (t, place.column) :: s.tokens }

/-- The scan with a token put in after the first `n`. -/
def insert (s : Scan) (n : Nat) (place : Cursor) (t : Token) : Scan :=
  let k := s.tokens.length - n
  { s with tokens := s.tokens.take k ++ (t, place.column) :: s.tokens.drop k }

/-! ## Indentation -/

/-- Whether the innermost column is that of a block. -/
def atBlock (s : Scan) : Bool := (s.levels.head?.map (·.isBlock)).getD false

/-- The scan without its innermost column. -/
def dropLevel (s : Scan) : Scan :=
  match s.levels with
  | l :: ls => { s with indent := l.outer, levels := ls }
  | [] => s

/-- Begins a block at a column, if that is right of the innermost one. Its token is put in after the
first `n`. -/
def openBlock (s : Scan) (column n : Nat) (place : Cursor) (t : Token) : Scan :=
  if s.inFlow then s
  else
    let s := if s.indent ≤ column && !s.levels.isEmpty && !s.atBlock then s.dropLevel else s
    if s.indent < column then
      { s with indent := column, levels := ⟨s.indent, true⟩ :: s.levels }.insert n place t
    else s

/-- Goes one column into a block. -/
def openColumn (s : Scan) : Scan :=
  if !s.inFlow && s.atBlock then
    { s with indent := s.indent + 1, levels := ⟨s.indent, false⟩ :: s.levels }
  else s

/-- Ends what is indented to the right of a column, one of at most `fuel` levels after another. -/
def closeLevels (column : Int) : Nat → Scan → Scan
  | 0, s => s
  | fuel + 1, s =>
    if s.indent ≤ column then s
    else
      let next := s.dropLevel
      closeLevels column fuel (if s.atBlock then next.push s.cursor .blockEnd else next)

/-- Ends what is indented to the right of a column. -/
def close (s : Scan) (column : Int) : Scan :=
  if s.inFlow then s else closeLevels column s.levels.length s

/-- Leaves the columns that are not those of blocks. -/
def closeColumns : Nat → Scan → Scan
  | 0, s => s
  | fuel + 1, s => if s.levels.isEmpty || s.atBlock then s else closeColumns fuel s.dropLevel

/-- The scan in its innermost block. -/
def inBlock (s : Scan) : Scan := closeColumns s.levels.length s

/-! ## Candidates -/

/-- The scan with another innermost candidate. -/
def setCandidate (s : Scan) (k : Candidate) : Scan :=
  { s with candidates := k :: s.candidates.drop 1 }

/-- No candidate. -/
def noCandidate (c : Cursor) : Candidate := ⟨false, false, 0, c⟩

/-- Notes that a key may begin here. -/
def saveCandidate (s : Scan) : Scan :=
  if s.keyAllowed then
    s.setCandidate
      ⟨true, !s.inFlow && s.indent == s.cursor.column && s.atBlock, s.tokens.length, s.cursor⟩
  else s

/-- Gives the innermost candidate up, if it need not be a key. -/
def giveUp (s : Scan) : Option Scan :=
  match s.candidates with
  | k :: ks =>
    if k.possible && k.required then none
    else some { s with candidates := { k with possible := false } :: ks }
  | [] => some s

/-- Gives the candidates up whose colon can come no more. -/
def giveUpStale (s : Scan) : Option Scan :=
  match s.candidates with
  | [k] =>
    if k.possible &&
        (k.place.line < s.cursor.line || k.place.index + keyLength < s.cursor.index) then s.giveUp
    else some s
  | _ => some s

/-! ## Between tokens -/

/-- Goes to the next token over blanks, line breaks and comments. A tab must not indent a line of a
block. -/
def skipBlanks : Nat → Scan → Option Scan
  | 0, _ => none
  | fuel + 1, s =>
    let c := s.cursor
    match c.rest with
    | [] => some s
    | x :: _ =>
      if x = '\t' && !s.levels.isEmpty && c.fresh && c.column < s.indent then
        match c.afterGap? with
        | some c => if endsLine c.rest then skipBlanks fuel (s.goTo c) else none
        | none => none
      else if isBlank x then skipBlanks fuel (s.goTo c.skipBlank)
      else if isBreak x then
        skipBlanks fuel { s with cursor := c.skipBreak, keyAllowed := s.keyAllowed || !s.inFlow }
      else if x = '#' then skipBlanks fuel (s.goTo c.skipComment)
      else some s

/-- Goes over spaces, line breaks and comments, of which there is at least one; `found` tells whether
one came before. -/
def skipSpaces : Nat → Bool → Scan → Option Scan
  | 0, _, _ => none
  | fuel + 1, found, s =>
    match s.cursor.rest with
    | ' ' :: _ => skipSpaces fuel true (s.goTo s.cursor.skipBlank)
    | '#' :: _ => skipSpaces fuel found (s.goTo s.cursor.skipComment)
    | x :: _ =>
      if isBreak x then
        skipSpaces fuel true
          { s with cursor := s.cursor.skipBreak, keyAllowed := s.keyAllowed || !s.inFlow }
      else if found then some s else none
    | [] => if found then some s else none

/-- Goes over the blanks of a line and a comment. -/
def skipGap (s : Scan) : Option Scan := s.cursor.afterGap?.map s.goTo

end Scan

end TierBudget.Yaml
