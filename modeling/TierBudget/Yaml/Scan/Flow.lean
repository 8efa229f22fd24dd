import TierBudget.Yaml.Scan.Basic
/-!
# Collections

Collections in brackets, and sequences of entries with hyphens. In a sequence in brackets a pair of a
key and a value is a mapping of its own.
-/

namespace TierBudget.Yaml.Scan

/-- The start of a collection in brackets. -/
def openFlow (s : Scan) (t : Token) : Option Scan := do
  let s := s.saveCandidate.openColumn
  if flowLimit < s.candidates.length then none
  let isMapping := t == .flowMapping
  let s := { s with
    candidates := noCandidate s.cursor :: s.candidates
    keyAllowed := true
    inMapping := s.inMapping || isMapping
    pairs := if isMapping then s.pairs else false :: s.pairs }
  ((s.push s.cursor t).goTo (s.cursor.advance 1)).skipGap

/-- Ends a mapping without brackets in a sequence in brackets. -/
def closePair (s : Scan) : Scan :=
  match s.pairs with
  | true :: ps => { s with inMapping := false, pairs := false :: ps }.push s.cursor .flowMappingEnd
  | _ => s

/-- The end of a collection in brackets. -/
def closeFlow (s : Scan) (t : Token) : Option Scan := do
  let s ← s.giveUp
  let s := { s with
    candidates := if s.inFlow then s.candidates.drop 1 else s.candidates
    keyAllowed := false }
  let s := if t = .flowSequenceEnd then { s.closePair with pairs := s.closePair.pairs.drop 1 } else s
  let start := s.cursor
  let s ← (s.goTo (start.advance 1)).skipGap
  let s := if s.inFlow then { s with adjacent := s.cursor.index } else s
  return s.push start t

/-- The comma between the parts of a collection in brackets. -/
def flowEntry (s : Scan) : Option Scan := do
  let s ← s.giveUp
  let s := { s with keyAllowed := true }.closePair
  let start := s.cursor
  let s ← (s.goTo (start.advance 1)).skipGap
  return s.push start .flowEntry

/-- Whether an anchor or a tag at the start of a line is the last token. -/
def afterProperty (s : Scan) : Bool :=
  match s.tokens with
  | (.anchor _, 0) :: _ | (.tag .., 0) :: _ => true
  | _ => false

/-- The hyphen before an entry of a sequence. -/
def blockEntry (s : Scan) : Option Scan := do
  if s.inFlow || !s.keyAllowed then none
  if s.afterProperty && s.cursor.column = 0 && -1 < s.indent then none
  let start := s.cursor
  let s := (s.goTo (start.advance 1)).openBlock start.column s.tokens.length start .blockSequence
  let (gap, c) ← s.cursor.gap?
  if gap.tabs && c.rest.head? = some '-' && endsWord (c.rest.drop 1) then none
  let s := s.goTo c
  let s := if (c.rest.head?.map isBreak).getD false || startsFlow c.rest then s.openColumn else s
  let s ← s.giveUp
  return { s with keyAllowed := true }.push s.cursor .blockEntry

end TierBudget.Yaml.Scan
