import TierBudget.Decimal.Numeral
/-!
# Trees of values

A document of settings, whatever its format, is a tree: tables and arrays over single values. The
entry of a table that counts for a key is the first one.
-/

namespace TierBudget

/-- A tree of values. -/
inductive Tree where
  /-- No value. -/
  | nothing
  | boolean (b : Bool)
  | integer (n : Int)
  | float (x : Float)
  | text (s : String)
  | array (elements : List Tree)
  | table (entries : List (String × Tree))

namespace Tree

instance : Inhabited Tree := ⟨.nothing⟩

/-- The entries of a table; other trees have none. -/
def entries : Tree → List (String × Tree)
  | .table es => es
  | _ => []

/-- The elements of an array; other trees have none. -/
def elements : Tree → List Tree
  | .array ts => ts
  | _ => []

/-- A table of pairs, of which the last one with a key counts. -/
def ofPairs (pairs : List (String × Tree)) : Tree :=
  .table (pairs.foldl (fun es (k, t) => (k, t) :: es.filter (·.1 != k)) [])

/-- An integer, if it fits 64 bits. -/
def integer? (n : Int) : Option Tree :=
  if Int64.minValue.toInt ≤ n ∧ n ≤ Int64.maxValue.toInt then some (.integer n) else none

/-- A float, if it is finite. -/
def finite? (x : Float) : Option Tree := if x.isFinite then some (.float x) else none

end Tree

end TierBudget
