import TierBudget.Tree.Path
/-!
# Laying trees over one another

`Tree.overlay` lays one tree over another: a table merges key by key, and every other tree takes the
place of what is there. `Tree.put` does so at the end of a path.
-/

namespace TierBudget.Tree

mutual

/-- The tree that results from laying the last argument over `base`. A table takes the place of
what is no table. -/
def overlay (base : Tree) : Tree → Tree
  | .table es => .table (overlayEntries base.entries es)
  | t => t

/-- The entries that result from laying entries over those of a table. -/
def overlayEntries (base : List (String × Tree)) : List (String × Tree) → List (String × Tree)
  | [] => base
  | (k, t) :: rest =>
    overlayEntries ((k, ((base.lookup k).getD .nothing).overlay t) :: base) rest

end

/-- Lays a tree over the part of another that a path leads to. -/
def put (base : Tree) (path : Path) (t : Tree) : Tree := base.modify (·.overlay t) path

/-- Lays entries over a tree, one after another, the key of each being the name of a path. -/
def putAll (base : Tree) (entries : List (String × Tree)) : Tree :=
  entries.foldl (fun b (name, t) => b.put (.ofName name) t) base

end TierBudget.Tree
