import TierBudget.Json.Token
import TierBudget.Yaml.Plain
/-!
# Quoted texts of YAML

A text in single quotes has no escapes but a quote that is written twice. In one in double quotes a
backslash begins an escape, and joins lines at the end of one.
-/

namespace TierBudget.Yaml

/-- The character of a short escape. -/
def escapeOf? (c : Char) : Option Char :=
  if c = '0' then some '\x00'
  else if c = 'a' then some '\x07'
  else if c = 'b' then some '\x08'
  else if c = 't' || c = '\t' then some '\t'
  else if c = 'n' then some '\n'
  else if c = 'v' then some '\x0b'
  else if c = 'f' then some '\x0c'
  else if c = 'r' then some '\r'
  else if c = 'e' then some '\x1b'
  else if c = ' ' || c = '\x22' || c = '/' || c = '\\' then some c
  else if c = 'N' then some '\u0085'
  else if c = '_' then some '\u00a0'
  else if c = 'L' then some '\u2028'
  else if c = 'P' then some '\u2029'
  else none

/-- How many hexadecimal digits follow the letter of an escape. -/
def escapeDigits? (c : Char) : Option Nat :=
  if c = 'x' then some 2 else if c = 'u' then some 4 else if c = 'U' then some 8 else none

/-- The character of an escape after its backslash, and how many characters it takes. -/
def scanEscape : List Char → Option (Char × Nat)
  | [] => none
  | c :: r =>
    match escapeDigits? c with
    | none => (escapeOf? c).map (·, 1)
    | some n => do
      if r.length < n then none
      let code ← Json.hexNumber? (r.take n)
      if code.isValidChar then some (.ofNat code, n + 1) else none

/-- A run of characters of a quoted text, put before `acc` in reverse. An escaped line break ends
it, which the last part of the result tells. -/
def scanQuotedRun (single : Bool) : Nat → List Char → Cursor → Option (List Char × Cursor × Bool)
  | 0, _, _ => none
  | fuel + 1, acc, c =>
    match c.rest with
    | '\x27' :: '\x27' :: _ =>
      if single then scanQuotedRun single fuel ('\x27' :: acc) (c.advance 2)
      else scanQuotedRun single fuel ('\x27' :: acc) (c.advance 1)
    | '\\' :: r =>
      if single then scanQuotedRun single fuel ('\\' :: acc) (c.advance 1)
      else if (r.head?.map isBreak).getD false then some (acc, (c.advance 1).skipBreak, true)
      else
        match scanEscape r with
        | some (x, n) => scanQuotedRun single fuel (x :: acc) (c.advance (n + 1))
        | none => none
    | x :: _ =>
      if isBlank x || isBreak x || x = (if single then '\x27' else '\x22') then some (acc, c, false)
      else scanQuotedRun single fuel (x :: acc) (c.advance 1)
    | [] => some (acc, c, false)

/-- The blanks and line breaks inside of a quoted text; `first` tells whether no line break came
before. A tab must not indent a line. -/
def foldQuoted (indent : Int) : Nat → Bool → Fold → Cursor → Option (Bool × Fold × Cursor)
  | 0, _, _, _ => none
  | fuel + 1, first, f, c =>
    match c.rest with
    | [] => some (first, f, c)
    | x :: _ =>
      if isBreak x then foldQuoted indent fuel false (f.addBreak first) c.skipBreak
      else if !isBlank x then some (first, f, c)
      else if first then foldQuoted indent fuel first { f with blanks := x :: f.blanks } c.skipBlank
      else if x = '\t' && c.column < indent then none
      else foldQuoted indent fuel first f c.skipBlank

/-- The rest of a quoted text after `acc`, which is in reverse. -/
def scanQuoted (single : Bool) (indent : Int) : Nat → List Char → Cursor →
    Option (List Char × Cursor)
  | 0, _, _ => none
  | fuel + 1, acc, c =>
    if c.isAtDocument || c.rest.isEmpty || c.column < indent then none
    else
      match scanQuotedRun single (c.rest.length + 1) acc c with
      | none => none
      | some (acc, c, escaped) =>
        if c.rest.head? = some (if single then '\x27' else '\x22') then some (acc, c.advance 1)
        else
          match foldQuoted indent (c.rest.length + 1) (!escaped) .empty c with
          | none => none
          | some (first, f, c) =>
            let between := if first then f.blanks.reverse else f.joined
            scanQuoted single indent fuel (between.reverse ++ acc) c

/-- Whether what follows a quoted text may follow it: in brackets their marks, and a colon, which
outside of brackets must stand on the line where the text began. -/
def mayFollowQuoted (inFlow : Bool) (line : Nat) (c : Cursor) : Bool :=
  match c.rest with
  | [] => true
  | x :: _ =>
    isBreak x || (inFlow && (x = ',' || x = ']' || x = '\x7d')) ||
      (x = ':' && (inFlow || c.line == line))

/-- A text in single or double quotes. -/
def quotedText? (inFlow : Bool) (indent : Int) (c : Cursor) : Option (String × Cursor) := do
  let single := c.rest.head? == some '\x27'
  let (acc, after) ← scanQuoted single indent (c.rest.length + 1) [] (c.advance 1)
  let after ← after.afterGap?
  if mayFollowQuoted inFlow c.line after then some (.ofList acc.reverse, after) else none

end TierBudget.Yaml
