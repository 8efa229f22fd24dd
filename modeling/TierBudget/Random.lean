/-!
# Random numbers

A `Generator` is any source of numbers that starts from a seed; what draws from one takes it as an
argument. `Generator.congruential` is the one that the program brings along: a step multiplies the
state modulo `2 ^ 64` and adds a constant. With a multiplier that is `1` modulo `4` and an odd
constant the states repeat after `2 ^ 64` steps and not before. The upper half of a state is the
better half, and only that is drawn.
-/

namespace TierBudget

/-- A source of numbers. -/
structure Generator where
  /-- What is kept from one number to the next. -/
  State : Type
  /-- The state that a seed starts from. -/
  ofSeed : UInt64 → State
  /-- The number that is drawn in a state, and the state after it. -/
  draw : State → Nat × State

namespace Generator

/-- A step of the linear congruential generator. -/
def congruentialStep (state : UInt64) : UInt64 :=
  state * 6364136223846793005 + 1442695040888963407

/-- The linear congruential generator. -/
def congruential : Generator where
  State := UInt64
  ofSeed := congruentialStep
  draw state := ((state >>> 32).toNat, congruentialStep state)

end Generator

end TierBudget
