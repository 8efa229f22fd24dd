import TierBudget.Yaml.Scan.Directive
/-!
# Keys and values

The colon before a value makes the last candidate a key, and begins the block of a mapping at its
column if none is open there.
-/

namespace TierBudget.Yaml.Scan

/-- The question mark before a key. -/
def explicitKey (s : Scan) : Option Scan := do
  if !s.inFlow && !s.keyAllowed then none
  let start := s.cursor
  let s := if s.inFlow then { s with inMapping := true }
    else s.openBlock start.column s.tokens.length start .blockMapping
  let s ← s.giveUp
  let s := { s with keyAllowed := !s.inFlow, cursor := start.advance 1 }
  let s ← skipSpaces (s.cursor.rest.length + 1) false s
  if s.cursor.rest.head? = some '\t' then none
  return s.push start .key

/-- The colon after a candidate that becomes a key by it. -/
def valueOf (s : Scan) (k : Candidate) (start : Cursor) (isPair : Bool) : Option Scan := do
  if isPair && k.place.line < start.line then none
  let s := s.insert k.token k.place .key
  let s := if isPair then s.insert k.token s.cursor .flowMapping else s
  let s := (s.openBlock k.place.column k.token k.place .blockMapping).openColumn
  return { s.setCandidate { k with possible := false } with keyAllowed := false }.push start .value

/-- The colon before a value whose key has a mark or is missing. -/
def valueAlone (s : Scan) (start : Cursor) (isPair : Bool) : Option Scan := do
  let s := if isPair then s.push s.cursor .flowMapping else s
  if !s.inFlow && !s.keyAllowed then none
  let s := (s.openBlock start.column s.tokens.length start .blockMapping).openColumn
  return { s with keyAllowed := !s.inFlow }.push start .value

/-- The colon before a value. -/
def value (s : Scan) : Option Scan := do
  let start := s.cursor
  let isPair := !s.pairs.isEmpty && !s.inMapping
  let s := if isPair then { s with pairs := true :: s.pairs.drop 1 } else s
  let s := s.goTo (start.advance 1)
  let s ← if s.cursor.rest.head? = some '\t' then do
      let (gap, c) ← s.cursor.gap?
      let x := c.rest.head?
      if !gap.spaces && (x.map isNameChar).getD false then none
      pure (s.goTo c)
    else pure s
  match s.candidates with
  | k :: _ => if k.possible then s.valueOf k start isPair else s.valueAlone start isPair
  | [] => s.valueAlone start isPair

/-- The colon before a value in brackets, where no blank follows. A bracket may follow only after a
text in quotes or a collection in brackets. -/
def flowValue (s : Scan) : Option Scan :=
  match s.cursor.rest.drop 1 with
  | x :: _ =>
    if s.cursor.index ≠ s.adjacent && (x = '[' || x = '\x7b') then none else s.value
  | [] => s.value

end TierBudget.Yaml.Scan
