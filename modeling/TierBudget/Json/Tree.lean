import TierBudget.Json.Reader
import TierBudget.Tree.Basic
/-!
# JSON documents

A JSON text as a tree of values. Of members with the same key the last one counts, values are
nested `depthLimit` deep at most, and every string must be a text.
-/

namespace TierBudget.Json

/-- How deep values may be nested. -/
def depthLimit : Nat := 127

mutual

/-- The tree of a value, if it is nested at most as deep as the first argument says. -/
def toTree? : Nat → Json → Option Tree
  | _, .null => some .nothing
  | _, .bool b => some (.boolean b)
  | _, .integer n => (Tree.integer? n).or (some (.float (.ofInt n)))
  | _, .float x => Tree.finite? x
  | _, .string s => s.map .text
  | 0, .array _ => none
  | depth + 1, .array xs => (elementTrees? depth xs).map .array
  | 0, .object _ => none
  | depth + 1, .object ms => (memberTrees? depth ms).map Tree.ofPairs

/-- The trees of elements. -/
def elementTrees? : Nat → List Json → Option (List Tree)
  | _, [] => some []
  | depth, x :: xs => do return (← toTree? depth x) :: (← elementTrees? depth xs)

/-- The keys and trees of members. -/
def memberTrees? : Nat → List (JsonString × Json) → Option (List (String × Tree))
  | _, [] => some []
  | depth, (k, x) :: ms => do return (← k, ← toTree? depth x) :: (← memberTrees? depth ms)

end

/-- The tree that a text writes. -/
def readTree (s : String) : Option Tree := (read s).bind (toTree? depthLimit)

end TierBudget.Json
