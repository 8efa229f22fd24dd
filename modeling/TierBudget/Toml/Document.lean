import TierBudget.Toml.Scalar
/-!
# TOML documents

A document is read line by line into a tree of nodes. A node remembers how its table came about,
because that decides what may still be added: a table has one header at most, a table with a header
is not extended by dotted keys, nor the other way round, and a value is never extended.
-/

namespace TierBudget.Toml

/-- How a table came about. -/
inductive Origin where
  /-- By a header of a table below it. -/
  | implied
  /-- By a header of its own. -/
  | opened
  /-- By a dotted key. -/
  | dotted
deriving DecidableEq

/-- A part of a document that is being read. -/
inductive Node where
  | value (t : Tree)
  | table (origin : Origin) (entries : List (String × Node))
  /-- The tables of repeated headers, the last one first. -/
  | tables (elements : List (List (String × Node)))

/-- The entries of a table that is being read. -/
abbrev Entries := List (String × Node)

namespace Entries

/-- Puts a node under a key, in place of the one it has. -/
def put (es : Entries) (key : String) (node : Node) : Entries :=
  if es.any (·.1 = key) then es.map fun e => if e.1 = key then (key, node) else e
  else es ++ [(key, node)]

/-- Adds a value under a dotted key. -/
def assign (es : Entries) : List String → Tree → Option Entries
  | [], _ => none
  | [key], t => if es.any (·.1 = key) then none else some (es ++ [(key, .value t)])
  | key :: next :: rest, t =>
    match es.lookup key with
    | none => do return es.put key (.table .dotted (← assign [] (next :: rest) t))
    | some (.table origin below) =>
      -- the table that gets the value itself must be one of dotted keys
      if origin = .opened || (rest.isEmpty && origin ≠ .dotted) then none
      else do return es.put key (.table origin (← assign below (next :: rest) t))
    | some _ => none

/-- Opens the table of a header. -/
def openTable (es : Entries) : List String → Option Entries
  | [] => none
  | [key] =>
    match es.lookup key with
    | none => some (es.put key (.table .opened []))
    | some (.table .implied below) => some (es.put key (.table .opened below))
    | some _ => none
  | key :: next :: rest =>
    match es.lookup key with
    | none => do return es.put key (.table .implied (← openTable [] (next :: rest)))
    | some (.table origin below) => do
      return es.put key (.table origin (← openTable below (next :: rest)))
    | some (.tables (last :: before)) => do
      return es.put key (.tables ((← openTable last (next :: rest)) :: before))
    | some _ => none

/-- Opens one more table of a repeated header. -/
def openElement (es : Entries) : List String → Option Entries
  | [] => none
  | [key] =>
    match es.lookup key with
    | none => some (es.put key (.tables [[]]))
    | some (.tables before) => some (es.put key (.tables ([] :: before)))
    | some _ => none
  | key :: next :: rest =>
    match es.lookup key with
    | none => do return es.put key (.table .implied (← openElement [] (next :: rest)))
    | some (.table origin below) => do
      return es.put key (.table origin (← openElement below (next :: rest)))
    | some (.tables (last :: before)) => do
      return es.put key (.tables ((← openElement last (next :: rest)) :: before))
    | some _ => none

/-- Adds a value under a dotted key of the table that a header has opened. -/
def assignIn (es : Entries) (path : List String) (t : Tree) : List String → Option Entries
  | [] => es.assign path t
  | key :: rest =>
    match es.lookup key with
    | some (.table origin below) => do
      return es.put key (.table origin (← assignIn below path t rest))
    | some (.tables (last :: before)) => do
      return es.put key (.tables ((← assignIn last path t rest) :: before))
    | _ => none

end Entries

mutual

/-- The value of a node that is complete. -/
def Node.toTree : Node → Tree
  | .value t => t
  | .table _ es => .table (entriesToTrees es)
  | .tables elements => .array (elementsToTrees elements).reverse

/-- The values of a table that is complete. -/
def entriesToTrees : List (String × Node) → List (String × Tree)
  | [] => []
  | (k, n) :: rest => (k, n.toTree) :: entriesToTrees rest

/-- The values of repeated tables that are complete. -/
def elementsToTrees : List (List (String × Node)) → List Tree
  | [] => []
  | es :: rest => .table (entriesToTrees es) :: elementsToTrees rest

end

mutual

/-- A value in front of a text, inside of which values may be nested as deep as the second argument
says. -/
def scanValue : Nat → Nat → List Char → Option (Tree × List Char)
  | 0, _, _ => none
  | fuel + 1, room + 1, '[' :: r => scanElements fuel room [] r
  | fuel + 1, room + 1, '\x7b' :: r => scanInline fuel room [] r
  | _ + 1, _, cs =>
    match cs.head? with
    | some '[' | some '\x7b' => none
    | some '\x22' | some '\x27' => (scanText cs).map fun (s, r) => (.text s, r)
    | _ => scanScalar cs

/-- The rest of an array, after the elements `acc` in reverse; the last may be followed by a
comma. -/
def scanElements : Nat → Nat → List Tree → List Char → Option (Tree × List Char)
  | 0, _, _, _ => none
  | fuel + 1, room, acc, cs =>
    match skipLines cs.length cs with
    | ']' :: r => some (.array acc.reverse, r)
    | cs =>
      match scanValue fuel room cs with
      | none => none
      | some (t, r) =>
        match skipLines r.length r with
        | ',' :: r => scanElements fuel room (t :: acc) r
        | ']' :: r => some (.array (t :: acc).reverse, r)
        | _ => none

/-- The rest of a table in braces, after some of its entries; the last may be followed by a
comma. -/
def scanInline : Nat → Nat → Entries → List Char → Option (Tree × List Char)
  | 0, _, _, _ => none
  | fuel + 1, room, es, cs =>
    match skipLines cs.length cs with
    | '\x7d' :: r => some (.table (entriesToTrees es), r)
    | cs =>
      match scanDotted cs with
      | some (path, '=' :: r) =>
        match scanValue fuel room (skipBlanks r) with
        | none => none
        | some (t, r) =>
          match es.assign path t, skipLines r.length r with
          | some es, ',' :: r => scanInline fuel room es r
          | some es, '\x7d' :: r => some (.table (entriesToTrees es), r)
          | _, _ => none
      | _ => none

end

/-- Reads a line `key = value` into the table of the last header. -/
def readAssignment (es : Entries) (header : List String) (cs : List Char) :
    Option (Entries × List Char) := do
  let (path, r) ← scanDotted cs
  let r ← expect '=' r
  let (t, r) ← scanValue (r.length + 1) depthLimit (skipBlanks r)
  return (← es.assignIn path t header, ← lineEnd? r)

/-- Reads a header whose brackets before the key have been read. -/
def readHeader (es : Entries) (repeated : Bool) (cs : List Char) :
    Option (Entries × List String × List Char) := do
  let (path, r) ← scanDotted (skipBlanks cs)
  let r ← expect ']' r
  if repeated then
    let r ← expect ']' r
    return (← es.openElement path, path, ← lineEnd? r)
  else return (← es.openTable path, path, ← lineEnd? r)

/-- Reads the lines of a document; each takes at least one character. -/
def readLines : Nat → Entries → List String → List Char → Option Entries
  | 0, es, _, _ => some es
  | fuel + 1, es, header, cs =>
    match skipBlanks cs with
    | [] => some es
    | '[' :: '[' :: r => do
      let (es, header, r) ← readHeader es true r
      readLines fuel es header r
    | '[' :: r => do
      let (es, header, r) ← readHeader es false r
      readLines fuel es header r
    | cs =>
      match lineEnd? cs with
      | some r => readLines fuel es header r
      | none => do
        let (es, r) ← readAssignment es header cs
        readLines fuel es header r

/-- The entries of a document. A byte order mark may stand in front of it. -/
def read (s : String) : Option (List (String × Tree)) :=
  let cs := match s.toList with
    | '\ufeff' :: r => r
    | r => r
  (readLines (cs.length + 1) [] [] cs).map entriesToTrees

end TierBudget.Toml
