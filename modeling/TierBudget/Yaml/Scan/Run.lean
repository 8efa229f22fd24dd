import TierBudget.Yaml.Scan.Content
import TierBudget.Yaml.Scan.Flow
import TierBudget.Yaml.Scan.Key
/-!
# The tokens of a text

`Token.scan` reads a text to its end, deciding by the next one or two characters what a token is.
-/

namespace TierBudget.Yaml

namespace Scan

/-- The token that starts with the given character in front of the rest. -/
def tokenAt (s : Scan) (x : Char) (r : List Char) : Option Scan :=
  if x = '[' then s.openFlow .flowSequence
  else if x = '\x7b' then s.openFlow .flowMapping
  else if x = ']' then s.closeFlow .flowSequenceEnd
  else if x = '\x7d' then s.closeFlow .flowMappingEnd
  else if x = ',' then s.flowEntry
  else if x = '-' && endsWord r then s.blockEntry
  else if x = '?' && endsWord r then s.explicitKey
  else if x = ':' && endsWord r then s.value
  else if x = ':' && s.inFlow && (startsFlow r || s.cursor.index == s.adjacent) then s.flowValue
  else if x = '*' then s.anchorName .alias
  else if x = '&' then s.anchorName .anchor
  else if x = '!' then s.tag
  else if x = '|' && !s.inFlow then s.block false
  else if x = '>' && !s.inFlow then s.block true
  else if x = '\x27' || x = '\x22' then s.quoted
  else if x = '%' || x = '@' || x = '\x60' then none
  else s.plain

/-- What ends the text. -/
def finish (s : Scan) : Option Scan :=
  if s.candidates.any fun k => k.possible && k.required then none
  else
    let given := s.candidates.map fun k => { k with possible := false }
    { s with cursor := s.cursor.toEnd, candidates := given }.closeAll

/-- Reads one more token. -/
def step (s : Scan) : Option Scan :=
  let c := s.cursor
  match c.rest with
  | [] => s.finish
  | x :: r =>
    if c.column = 0 && x = '%' then s.directive
    else if c.isAtMark '-' then s.documentMark .documentStart
    else if c.isAtMark '.' then s.documentEnd
    else if c.column < s.indent then none
    else s.tokenAt x r

/-- Reads all tokens; each takes at least one character. -/
def run : Nat → Scan → Option Scan
  | 0, _ => none
  | fuel + 1, s => do
    let s ← skipBlanks (s.cursor.rest.length + 1) s
    let s ← s.giveUpStale
    let s := s.close s.cursor.column
    let next ← s.step
    if s.cursor.rest.isEmpty then some next else run fuel next

end Scan

/-- The tokens of a text. -/
def Token.scan (text : String) : Option (List Token) :=
  let c := Cursor.ofText text
  (Scan.run (c.rest.length + 1) ⟨c, -1, [], true, [Scan.noCandidate c], [], 0, false, []⟩).map
    fun s => s.tokens.reverse.map (·.1)

end TierBudget.Yaml
