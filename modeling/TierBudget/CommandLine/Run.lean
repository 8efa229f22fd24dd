import TierBudget.CommandLine.Files
import TierBudget.CommandLine.Invocation
import TierBudget.CommandLine.Outcome
import TierBudget.CommandLine.Overview
import TierBudget.Simulation
/-!
# Running commands

`respondWith` says what a command line leads to, given a generator of random numbers, the
environment, the contents of files and a seed. Nothing else enters, so the outcome of a run is a
function of these. `respond` is the same with the generator that the program brings along.

* `normalizedReport`, `rebalancedReport`, `detachedReport` and `evenReport` are the reports of the
  commands, `Command.run` prints them.
* `Invocation.paths` are the files that an invocation may look at.
-/

namespace TierBudget.CommandLine

/-! ## Reading -/

/-- The raw weights in a file. -/
def readWeights (files : Files) (path : String) : Except Failure (List (RawEntry String)) :=
  match files.read? path with
  | none => .error (.unreadableWeights path)
  | some text =>
    match Codec.rawEntry.list.read text with
    | none => .error (.malformedWeights path)
    | some raw => .ok raw

/-! ## Printing -/

/-- The outcome of a report under a title, as a table or as JSON. -/
def printReport (title : String) (json : Bool) (r : Report) : Outcome :=
  if json then .printed (r.toJson.pretty ++ "\n") []
  else
    match r.total? with
    | none => .overflowed
    | some total =>
      let vacated := ", ".intercalate r.vacated
      let warnings := if r.vacated.isEmpty then []
        else [s!"⚠ Zero-weight endpoints should be detached: {vacated}"]
      .printed (s!"{title}\n\n{r.toTable.write}\nTotal: {decimalText total.toNat} / " ++
        s!"{decimalText r.scale.size.toNat}\n") warnings

/-- The outcome of a simulation of requests to a tier. -/
def printSimulation (p : Policy) (t : Tier) (path : String) (requests : Count) (g : Generator)
    (seed : UInt64) : Outcome :=
  match Picker.ofTier? p t with
  | none => .overflowed
  | some k =>
    if k.isEmpty then .failed (.noEndpoints path)
    else
      let table := simulationTable t requests (k.hits requests g seed)
      .printed s!"🎲 Simulated {decimalText requests.toNat} requests\n\n{table.write}\n" []

/-! ## Reports -/

section

variable (p : Policy) (files : Files)

/-- The weights of a file, normalized. -/
def normalizedReport (input : String) : Except Failure Report := do
  return .ofEntries p (p.ofRaw (← readWeights files input))

/-- The weights of a file after one of them is set. -/
def rebalancedReport (input target : String) (unit : Float) : Except Failure Report := do
  let entries := p.rebalance (p.ofRaw (← readWeights files input)) target unit
  if entries.isEmpty then throw (.unknownEndpoint target input) else return .ofEntries p entries

/-- The weights of a file without one of its endpoints. -/
def detachedReport (input target : String) : Except Failure Report := do
  match p.detach (p.ofRaw (← readWeights files input)) target with
  | none => throw (.unknownEndpoint target input)
  | some entries => return .ofEntries p entries

/-- Even weights. -/
def evenReport (ids : List String) : Report := .ofEntries p (p.evenSplit ids)

end

/-! ## Running -/

/-- The outcome of a computation that can fail. -/
def Outcome.ofExcept {α : Type} (print : α → Outcome) : Except Failure α → Outcome
  | .ok x => print x
  | .error e => .failed e

namespace Command

/-- The outcome of a command under the given settings. A simulation without a seed of its own starts
from `entropy`. -/
def run (s : Settings) (files : Files) (g : Generator) (entropy : UInt64) : Command → Outcome
  | .normalize input json =>
    .ofExcept (printReport "⚖ Normalized Weights" json) (normalizedReport s.policy files input)
  | .rebalance input target unit json =>
    .ofExcept (printReport s!"⚖ Rebalanced '{target}' to {percentage unit}" json)
      (rebalancedReport s.policy files input target unit)
  | .split ids json => printReport "⚖ Even Split" json (evenReport s.policy ids)
  | .detach input target json =>
    .ofExcept (printReport s!"⚖ Detached '{target}'" json)
      (detachedReport s.policy files input target)
  | .simulate input requests seed =>
    .ofExcept (fun raw => printSimulation s.policy (.ofStored s.policy "simulated" raw) input
      requests g (seed.getD entropy)) (readWeights files input)
  | .info => .printed (overview s) []

/-- The file that a command reads. -/
def input? : Command → Option String
  | .normalize input _ | .rebalance input .. | .detach input .. | .simulate input .. => some input
  | .split .. | .info => none

end Command

namespace Invocation

/-- The paths of the files that an invocation may look at. -/
def paths (i : Invocation) : List String :=
  (i.config.map configPaths).getD [] ++ i.command.input?.toList

/-- The outcome of an invocation. The settings come first. -/
def run (i : Invocation) (vars : List Variable) (files : Files) (g : Generator)
    (entropy : UInt64) : Outcome :=
  match Settings.load (settingsFile files i.config) vars with
  | .error e => .failed (.settings e)
  | .ok s => i.command.run s files g entropy

end Invocation

/-- The invocation of a command line in an environment. -/
def invocation (words : List String) (vars : List Variable) : Except Stop Invocation :=
  parse words (vars.lookup configVariable)

/-- What a command line leads to, with any generator of random numbers. -/
def respondWith (g : Generator) (words : List String) (vars : List Variable) (files : Files)
    (entropy : UInt64) : Outcome :=
  match invocation words vars with
  | .error .help => .printed helpText []
  | .error .version => .printed versionText []
  | .error .misuse => .misused
  | .ok i => i.run vars files g entropy

/-- What a command line leads to. -/
def respond : List String → List Variable → Files → UInt64 → Outcome := respondWith .congruential

/-- The paths of the files that a command line may look at. -/
def pathsOf (words : List String) (vars : List Variable) : List String :=
  match invocation words vars with
  | .ok i => i.paths
  | .error _ => []

end TierBudget.CommandLine
