import TierBudget.Ron.Scalar
/-!
# RON documents

A document is one value, in front of which extensions may be switched on. Structures are tables if
their fields have names and arrays if they have none; the name of a structure carries no meaning, and
without fields nor brackets it is no value. `Some` is the value that it holds. Maps have texts for
keys.
-/

namespace TierBudget.Ron

/-- How deep values may be nested. -/
def depthLimit : Nat := 128

/-! ## Extensions -/

/-- The extensions that can be switched on. None of them changes what a tree is. -/
def extensions : List String :=
  ["unwrap_newtypes", "implicit_some", "unwrap_variant_newtypes", "explicit_struct_names"]

/-- The text after words and signs with blanks between them. -/
def afterAll? (words : List String) (cs : List Char) : Option (List Char) :=
  words.foldlM (fun cs word => (skip cs).bind word.toList.isPrefixOf?) cs

/-- The text after the names of extensions and what closes them. -/
def afterNames? : Nat → List Char → Option (List Char)
  | 0, _ => none
  | fuel + 1, cs => do
    let (name, r) ← scanName (← skip cs)
    if !extensions.contains name then none
    match ← skip r with
    | ',' :: r =>
      let r ← skip r
      if (scanName r).isSome then afterNames? fuel r else afterAll? [")", "]"] r
    | r => afterAll? [")", "]"] r

/-- The text after the lines that switch on extensions. -/
def skipExtensions : Nat → List Char → Option (List Char)
  | 0, _ => none
  | fuel + 1, cs => do
    match ← skip cs with
    | '#' :: r =>
      let r ← afterAll? ["!", "[", "enable", "("] r
      skipExtensions fuel (← afterNames? (r.length + 1) r)
    | cs => some cs

/-! ## Values -/

/-- Whether a name and a colon follow an opening bracket. -/
def hasFieldName (cs : List Char) : Bool :=
  (do
    let (_, r) ← scanName (← skip cs)
    return (← skip r).head? == some ':').getD false

/-- A text or a character, which can be the key of a map. -/
def scanKey (cs : List Char) : Option (String × List Char) :=
  (scanString cs).or ((scanChar cs).map fun (c, r) => (.ofList [c], r))

mutual

/-- A value in front of a text that does not start with a blank; values may be nested inside as deep
as the second argument says. -/
def scanValue : Nat → Nat → List Char → Option (Tree × List Char)
  | 0, _, _ => none
  | fuel + 1, depth, cs =>
    match afterWord? "true" cs, afterWord? "false" cs, afterWord? "None" cs, afterWord? "Some" cs with
    | some r, _, _, _ => some (.boolean true, r)
    | _, some r, _, _ => some (.boolean false, r)
    | _, _, some r, _ => some (.nothing, r)
    | _, _, _, some r => scanSome fuel depth r
    | none, none, none, none =>
      match scanSpecial cs, scanName cs, cs with
      | some x, _, _ => some x
      | none, some (_, r), _ =>
        match skip r with
        | none => none
        | some ('(' :: r) => scanStructure fuel depth r
        | some r => some (.nothing, r)
      | none, none, '(' :: ')' :: r => some (.nothing, r)
      | none, none, '(' :: r => scanStructure fuel depth r
      | none, none, '[' :: r =>
        match depth with
        | 0 => none
        | depth + 1 => scanElements fuel depth ']' [] r
      | none, none, '\x7b' :: r =>
        match depth with
        | 0 => none
        | depth + 1 => scanEntries fuel depth [] r
      | none, none, cs => ((scanKey cs).map fun (s, r) => (.text s, r)).or (scanNumber cs)

/-- What stands in brackets after `Some`. -/
def scanSome : Nat → Nat → List Char → Option (Tree × List Char)
  | 0, _, _ | _, 0, _ => none
  | fuel + 1, depth + 1, cs =>
    match skip cs with
    | some ('(' :: r) =>
      match (skip r).bind (scanValue fuel depth) with
      | none => none
      | some (t, r) =>
        match skip r with
        | some (',' :: r) => (afterAll? [")"] r).map (t, ·)
        | some (')' :: r) => some (t, r)
        | _ => none
    | _ => none

/-- The rest of a structure whose opening bracket has been read. -/
def scanStructure : Nat → Nat → List Char → Option (Tree × List Char)
  | 0, _, _ | _, 0, _ => none
  | fuel + 1, depth + 1, cs =>
    if hasFieldName cs then scanFields fuel depth [] cs else scanElements fuel depth ')' [] cs

/-- The elements up to a closing character, after those in `acc` in reverse. -/
def scanElements : Nat → Nat → Char → List Tree → List Char → Option (Tree × List Char)
  | 0, _, _, _, _ => none
  | fuel + 1, depth, close, acc, cs =>
    match skip cs with
    | none | some [] => none
    | some (c :: r) =>
      if c = close then some (.array acc.reverse, r)
      else
        match scanValue fuel depth (c :: r) with
        | none => none
        | some (t, r) =>
          match skip r with
          | some (',' :: r) => scanElements fuel depth close (t :: acc) r
          | some (c :: r) => if c = close then some (.array (t :: acc).reverse, r) else none
          | _ => none

/-- The fields of a structure, after those in `acc` in reverse. -/
def scanFields : Nat → Nat → List (String × Tree) → List Char → Option (Tree × List Char)
  | 0, _, _, _ => none
  | fuel + 1, depth, acc, cs =>
    match skip cs with
    | none => none
    | some (')' :: r) => some (.ofPairs acc.reverse, r)
    | some cs =>
      match (scanName cs).bind fun (k, r) => (afterAll? [":"] r).map (k, ·) with
      | none => none
      | some (k, r) =>
        match (skip r).bind (scanValue fuel depth) with
        | none => none
        | some (t, r) =>
          match skip r with
          | some (',' :: r) => scanFields fuel depth ((k, t) :: acc) r
          | some (')' :: r) => some (.ofPairs ((k, t) :: acc).reverse, r)
          | _ => none

/-- The entries of a map, after those in `acc` in reverse. -/
def scanEntries : Nat → Nat → List (String × Tree) → List Char → Option (Tree × List Char)
  | 0, _, _, _ => none
  | fuel + 1, depth, acc, cs =>
    match skip cs with
    | none => none
    | some ('\x7d' :: r) => some (.ofPairs acc.reverse, r)
    | some cs =>
      match (scanKey cs).bind fun (k, r) => (afterAll? [":"] r).map (k, ·) with
      | none => none
      | some (k, r) =>
        match (skip r).bind (scanValue fuel depth) with
        | none => none
        | some (t, r) =>
          match skip r with
          | some (',' :: r) => scanEntries fuel depth ((k, t) :: acc) r
          | some ('\x7d' :: r) => some (.ofPairs ((k, t) :: acc).reverse, r)
          | _ => none

end

/-- The tree that a text writes. -/
def read (s : String) : Option Tree := do
  let cs ← skipExtensions (s.length + 1) s.toList
  let (t, r) ← scanValue (2 * cs.length + 2) depthLimit cs
  if (← skip r) = [] then some t else none

end TierBudget.Ron
