import TierBudget.Decimal.Numeral
/-!
# Options of the command line

An option has a name after two hyphens and may have a letter after one. Some options carry a value,
and `Flag.accepts` says which texts can be that value.
-/

namespace TierBudget.CommandLine

/-- An option. -/
inductive Flag where
  | verbose
  | config
  | input
  | target
  | unit
  | json
  | requests
  | seed
  | help
  | version
deriving DecidableEq

/-- A number of requests: a whole number of 32 bits, which may be a negative zero. -/
def readRequests (s : String) : Option UInt32 := do
  let n ← readInt s
  if 0 ≤ n && n < UInt32.size then some (.ofNat n.toNat) else none

/-- A seed: a whole number of 64 bits. -/
def readSeed (s : String) : Option UInt64 := do
  let n ← readNat s
  if n < UInt64.size then some (.ofNat n) else none

namespace Flag

/-- The letter of an option. -/
def letter? : Flag → Option Char
  | .verbose => some 'v'
  | .config => some 'c'
  | .input => some 'i'
  | .target => some 't'
  | .unit => some 'u'
  | .requests => some 'n'
  | .help => some 'h'
  | .version => some 'V'
  | .json | .seed => none

/-- The name of an option. -/
def name : Flag → String
  | .verbose => "verbose"
  | .config => "config"
  | .input => "input"
  | .target => "target"
  | .unit => "unit"
  | .json => "json"
  | .requests => "requests"
  | .seed => "seed"
  | .help => "help"
  | .version => "version"

/-- Whether an option carries a value. -/
def hasValue : Flag → Bool
  | .config | .input | .target | .unit | .requests | .seed => true
  | .verbose | .json | .help | .version => false

/-- Whether an option may be given more than once. -/
def mayRepeat (f : Flag) : Bool := f == .verbose

/-- Whether a text can be the value of an option: files have names, and numbers must read. -/
def accepts : Flag → String → Bool
  | .config, s | .input, s => s != ""
  | .unit, s => (readFloat s).isSome
  | .requests, s => (readRequests s).isSome
  | .seed, s => (readSeed s).isSome
  | _, _ => true

end Flag

end TierBudget.CommandLine
