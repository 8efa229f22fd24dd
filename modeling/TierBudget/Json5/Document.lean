import TierBudget.Json5.Scalar
/-!
# JSON5 documents

A document is one value with blanks and comments around it. Lists may end in a comma, keys need no
quotes, and of entries with the same key the last one counts.
-/

namespace TierBudget.Json5

mutual

/-- A value in front of a text that does not start with a blank. -/
def scanValue : Nat → List Char → Option (Tree × List Char)
  | 0, _ => none
  | fuel + 1, '[' :: r => scanElements fuel [] (skip r)
  | fuel + 1, '\x7b' :: r => scanEntries fuel [] (skip r)
  | _ + 1, '\x22' :: r => (scanString '\x22' (r.length + 1) [] r).map fun (s, r) => (.text s, r)
  | _ + 1, '\x27' :: r => (scanString '\x27' (r.length + 1) [] r).map fun (s, r) => (.text s, r)
  | _ + 1, 't' :: 'r' :: 'u' :: 'e' :: r => some (.boolean true, r)
  | _ + 1, 'f' :: 'a' :: 'l' :: 's' :: 'e' :: r => some (.boolean false, r)
  | _ + 1, 'n' :: 'u' :: 'l' :: 'l' :: r => some (.nothing, r)
  | _ + 1, cs => scanNumber cs

/-- The rest of an array, after the elements `acc` in reverse. -/
def scanElements : Nat → List Tree → List Char → Option (Tree × List Char)
  | 0, _, _ => none
  | _ + 1, acc, ']' :: r => some (.array acc.reverse, r)
  | fuel + 1, acc, cs =>
    match scanValue fuel cs with
    | none => none
    | some (t, r) =>
      match skip r with
      | ',' :: r => scanElements fuel (t :: acc) (skip r)
      | ']' :: r => some (.array (t :: acc).reverse, r)
      | _ => none

/-- The rest of an object, after the entries `acc` in reverse. -/
def scanEntries : Nat → List (String × Tree) → List Char → Option (Tree × List Char)
  | 0, _, _ => none
  | _ + 1, acc, '\x7d' :: r => some (.ofPairs acc.reverse, r)
  | fuel + 1, acc, cs =>
    match scanKey cs with
    | none => none
    | some (k, r) =>
      match skip r with
      | ':' :: r =>
        match scanValue fuel (skip r) with
        | none => none
        | some (t, r) =>
          match skip r with
          | ',' :: r => scanEntries fuel ((k, t) :: acc) (skip r)
          | '\x7d' :: r => some (.ofPairs ((k, t) :: acc).reverse, r)
          | _ => none
      | _ => none

end

/-- The tree that a text writes. -/
def read (s : String) : Option Tree := do
  let cs := skip s.toList
  let (t, r) ← scanValue (cs.length + 1) cs
  if skip r = [] then some t else none

end TierBudget.Json5
