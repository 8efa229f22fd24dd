import TierBudget.Tree.Basic
/-!
# Paths in trees

A name such as `a.b[0]` leads into a tree: a key leads to an entry of a table, a number in brackets
to an element of an array, counted from the end if it is negative. `Path.ofName` reads a name, and
`Tree.modify` changes what a path leads to. On the way whatever is in a path's way makes place for
the tables and arrays that the path needs.
-/

namespace TierBudget

/-- A step from a tree to a part of it. -/
inductive Step where
  | key (k : String)
  | index (i : Int)
deriving DecidableEq

/-- The way to a part of a tree. -/
abbrev Path := List Step

/-! ## Names of paths -/

namespace Path

/-- Whether a character may stand in a key without quotes. -/
def isKeyChar (c : Char) : Bool := c.isAlphanum || c = '_' || c = '-'

/-- Whether a character may stand beside a number in brackets. -/
def isBlank (c : Char) : Bool := c = ' ' || c = '\t'

/-- The key in front of a text, and the rest. -/
def scanKey (cs : List Char) : Option (Step × List Char) :=
  match cs.takeWhile isKeyChar with
  | [] => none
  | k => some (.key (.ofList k), cs.drop k.length)

/-- The sign and digits of a number in front of a text, and the rest. -/
def scanInt (cs : List Char) : Option (Int × List Char) :=
  let (negative, r) := match cs with
    | '-' :: r => (true, r)
    | r => (false, r)
  match r.takeWhile Char.isDigit with
  | [] => none
  | ds => some (if negative then -(ofDigits ds) else ofDigits ds, r.drop ds.length)

/-- The number in front of a closing bracket, and the text after that. -/
def scanIndex (cs : List Char) : Option (Step × List Char) :=
  match scanInt (cs.dropWhile isBlank) with
  | none => none
  | some (n, r) =>
    match r.dropWhile isBlank with
    | ']' :: r => (Tree.integer? n).map fun _ => (.index n, r)
    | _ => none

/-- The steps after the first; each takes at least one character. -/
def scanSteps : Nat → List Char → Option Path
  | _, [] => some []
  | fuel + 1, '.' :: r => do
    let (step, r) ← scanKey r
    return step :: (← scanSteps fuel r)
  | fuel + 1, '[' :: r => do
    let (step, r) ← scanIndex r
    return step :: (← scanSteps fuel r)
  | _, _ => none

/-- The path that a name describes. A name that describes none is a single key. -/
def ofName (name : String) : Path :=
  (do
    let (step, r) ← scanKey name.toList
    return step :: (← scanSteps r.length r)).getD [.key name]

end Path

/-! ## Following paths -/

namespace Tree

/-- Elements with enough room for an index, and the place of the index. An index from the end can
need room at the start. -/
def makeRoom (i : Int) (ts : List Tree) : List Tree × Nat :=
  if 0 ≤ i then (ts ++ List.replicate (i.toNat + 1 - ts.length) .nothing, i.toNat)
  else (List.replicate (i.natAbs - ts.length) .nothing ++ ts, ts.length - i.natAbs)

/-- Changes the part of a tree that a path leads to. -/
def modify (f : Tree → Tree) : Path → Tree → Tree
  | [], t => f t
  | .key k :: rest, t =>
    .table ((k, modify f rest ((t.entries.lookup k).getD .nothing)) :: t.entries)
  | .index i :: rest, t =>
    let (ts, n) := makeRoom i t.elements
    .array (ts.set n (modify f rest (ts[n]?.getD .nothing)))

end Tree

end TierBudget
