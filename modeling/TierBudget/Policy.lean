import TierBudget.Apportionment
import TierBudget.Decimal.Layout
/-!
# Rebalancing

A `Policy` is the scale of a tier and the tolerance for telling fractions from percentages. Its
operations take the entries of a tier and return complete new ones, in the same order and under the
same ids, whose counts add up to the scale:

* `Policy.toFixed` rescales any weights and gives the counts, `Policy.normalize` the units that
  those counts stand for;
* `Policy.rebalance` sets one entry and lets the others share the rest in proportion;
* `Policy.evenSplit`, `Policy.detach` and `Policy.ofRaw` build entries from ids, from the entries
  but one, and from raw weights.
-/

namespace TierBudget

/-- The settings that every rebalancing shares. -/
structure Policy where
  scale : Scale
  /-- How far above `1` an untagged weight may lie and still be a fraction. -/
  percentEpsilon : Float
deriving DecidableEq

/-- Why a policy is refused. -/
inductive PolicyError where
  | zeroScale
  | invalidEpsilon (epsilon : Float)
deriving DecidableEq

/-- The text of a policy error. -/
def PolicyError.message : PolicyError → String
  | .zeroScale => "fixed-point scale must be non-zero"
  | .invalidEpsilon x =>
    s!"percent epsilon must be finite and non-negative, got {Layout.plain.write x}"

namespace Policy

/-- The tolerance in use where none is set. -/
def defaultEpsilon : Float := 1e-6

instance : Inhabited Policy := ⟨⟨default, defaultEpsilon⟩⟩

/-- Accepts a policy whose tolerance is a finite number that is not below zero. -/
def validate (p : Policy) : Except PolicyError Unit :=
  if !p.percentEpsilon.isFinite || p.percentEpsilon < 0 then
    .error (.invalidEpsilon p.percentEpsilon)
  else .ok ()

/-- The shares of the given units in their sum, which is taken from left to right. Units that are
all zero get even shares. -/
def shares (units : List Float) : List Float :=
  let clamped := units.map clampUnit
  let sum := clamped.foldl (· + ·) 0
  if sum ≤ 0 then clamped.map fun _ => 1 / .ofNat units.length
  else clamped.map (· / sum)

section

variable {ι : Type}

/-- The counts of the entries, rescaled to add up to the scale. -/
def toFixed (p : Policy) (entries : List (Entry ι)) : List (FixedEntry ι) :=
  entries.zipWith (fun e n => ⟨e.id, n⟩) (apportion p.scale (shares (entries.map Entry.unit)))

/-- The entries that the given counts stand for. -/
def ofFixed (p : Policy) (entries : List (FixedEntry ι)) : List (Entry ι) :=
  entries.map fun e => ⟨e.id, p.scale.decode e.count⟩

/-- The entries, rescaled to add up to one on the grid of the scale. -/
def normalize (p : Policy) (entries : List (Entry ι)) : List (Entry ι) := p.ofFixed (p.toFixed entries)

/-- Even shares, in the order of the ids. -/
def evenSplit (p : Policy) (ids : List ι) : List (Entry ι) :=
  p.normalize (ids.map fun id => ⟨id, 1 / .ofNat ids.length⟩)

/-- The entries of raw weights. -/
def ofRaw (p : Policy) (raw : List (RawEntry ι)) : List (Entry ι) :=
  p.normalize (raw.map fun r => ⟨r.id, r.weight.toUnit p.percentEpsilon⟩)

variable [DecidableEq ι]

/-- The entries without the first one of the given id, whose share goes to the others in
proportion; nothing if there is no such entry. -/
def detach (p : Policy) (entries : List (Entry ι)) (target : ι) : Option (List (Entry ι)) :=
  if entries.any (·.id = target) then some (p.normalize (entries.eraseP (·.id = target))) else none

/-- The unit of an entry besides the target: its part of what the target leaves, in proportion to
its weight, or an even part if the others weigh nothing. -/
def otherUnit (remaining total : Float) (others : Nat) (unit : Float) : Float :=
  if remaining ≤ 0 then 0
  else if total ≤ 0 then remaining / .ofNat others
  else remaining * clampUnit unit / total

/-- The entries with `unit` for the entry at position `target` and the rest of the whole shared
among the others. -/
def redistribute (entries : List (Entry ι)) (target : Nat) (unit : Float) : List (Entry ι) :=
  let unit := clampUnit unit
  let remaining := clampUnit (1 - unit)
  let total := ((entries.eraseIdx target).map fun e => clampUnit e.unit).foldl (· + ·) 0
  entries.zipIdx.map fun (e, i) =>
    ⟨e.id, if i = target then unit else otherUnit remaining total (entries.length - 1) e.unit⟩

/-- Sets the first entry of the given id to `desired` and lets the others keep their proportions.
A lone entry always holds the whole. Without such an entry the result is empty. -/
def rebalance (p : Policy) (entries : List (Entry ι)) (target : ι) (desired : Float) :
    List (Entry ι) :=
  match entries.findIdx? (·.id = target), entries with
  | none, _ => []
  | some _, [e] => [⟨e.id, 1⟩]
  | some i, _ => p.normalize (redistribute entries i desired)

end

end Policy

end TierBudget
