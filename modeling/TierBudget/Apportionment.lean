import TierBudget.Scale
/-!
# Apportionment

Splitting a total into whole counts in proportion to given shares. Each share is cut to the whole
count below it, a `Part`. What is then missing is handed out one unit at a time, round after round,
to the largest remainders first (`handOut`); what is too much is taken back in the same way from
the smallest remainders first, passing over parts that have nothing left (`takeBack`). Both are
written in closed form, since a total may be billions away: `n` parts get `q` whole rounds and the
first ones of the order one more.

`apportion` cuts doubles into parts at a scale and settles them.
-/

namespace TierBudget

/-- A share cut to a whole count, and what the cut left over in billionths. -/
structure Part where
  floor : Nat
  remainder : Nat
deriving DecidableEq

namespace Apportionment

/-- The sum of whole numbers. -/
def total (ns : List Nat) : Nat := ns.foldr (· + ·) 0

/-- The sum of the whole counts. -/
def assigned (parts : List Part) : Nat := total (parts.map Part.floor)

/-- The parts with their positions, larger remainders first and equal ones in list order. -/
def byLargest (parts : List Part) : List (Part × Nat) :=
  parts.zipIdx.mergeSort fun a b => b.1.remainder ≤ a.1.remainder

/-- The parts with their positions, smaller remainders first and equal ones in list order. -/
def bySmallest (parts : List Part) : List (Part × Nat) :=
  parts.zipIdx.mergeSort fun a b => a.1.remainder ≤ b.1.remainder

/-- The counts after `deficit` units were handed out: every part gets the whole rounds, and the
first ones by remainder the units of the last, unfinished round. -/
def handOut (parts : List Part) (deficit : Nat) : List Nat :=
  let favoured := ((byLargest parts).take (deficit % parts.length)).map (·.2)
  parts.zipIdx.map fun (p, i) =>
    p.floor + deficit / parts.length + if favoured.contains i then 1 else 0

/-- What `level` rounds of taking back take in all. -/
def drained (parts : List Part) (level : Nat) : Nat := total (parts.map fun p => min p.floor level)

/-- The largest `level < acc + 2 ^ bits` whose rounds take at most `surplus`, found bit by bit; the
rounds of `acc` are known to take no more. -/
def levelFrom (parts : List Part) (surplus : Nat) : Nat → Nat → Nat
  | 0, acc => acc
  | bits + 1, acc =>
    let next := acc + Nat.pow 2 bits
    if drained parts next ≤ surplus then levelFrom parts surplus bits next
    else levelFrom parts surplus bits acc

/-- How many whole rounds take at most `surplus`. -/
def level (parts : List Part) (surplus : Nat) : Nat := levelFrom parts surplus 32 0

/-- The counts after `surplus` units were taken back: every part loses the whole rounds, as far as
it has units, and the first ones by remainder that have any left one more. -/
def takeBack (parts : List Part) (surplus : Nat) : List Nat :=
  let rounds := level parts surplus
  let lowered := (((bySmallest parts).filter fun p => rounds < p.1.floor).take
    (surplus - drained parts rounds)).map (·.2)
  parts.zipIdx.map fun (p, i) => p.floor - rounds - if lowered.contains i then 1 else 0

/-- Counts for the parts that add up to `total`. -/
def settle (total : Nat) (parts : List Part) : List Nat :=
  if assigned parts ≤ total then handOut parts (total - assigned parts)
  else takeBack parts (assigned parts - total)

/-- How far below a whole count a share may lie and still be cut to it, so that the noise of a
division does not cost a unit. -/
def snap : Float := 1e-9

/-- Remainders are compared in billionths. -/
def resolution : Float := 1e9

/-- A share cut at a scale. -/
def part (scale : Scale) (share : Float) : Part :=
  let scaled := clampUnit share * scale.toFloat
  let floor := (Magnitude.ofFloat (scaled + snap)).floor
  let left := scaled - .ofNat floor
  let fraction := if 0 < left then left else 0
  ⟨floor, (Magnitude.ofFloat (fraction * resolution)).round⟩

end Apportionment

/-- Counts in proportion to the shares that add up to the scale, unless there are none. Shares are
clamped, and expected to add up to about one. -/
def apportion (scale : Scale) (shares : List Float) : List Count :=
  (Apportionment.settle scale.size.toNat (shares.map (Apportionment.part scale))).map .ofNat

end TierBudget
