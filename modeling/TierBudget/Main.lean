import TierBudget.CommandLine.Run
/-!
# The program

Gathers what `CommandLine.respond` depends on and carries out its outcome.
-/

namespace TierBudget.CommandLine

/-- The variable that an entry `NAME=TEXT` of the environment describes. -/
def variableOf? (entry : List Char) : Option Variable :=
  let name := entry.takeWhile (· != '=')
  match entry.drop name.length with
  | _ :: value => some (.ofList name, .ofList value)
  | [] => none

/-- The variables of the environment. -/
def readVariables : IO (List Variable) := do
  try
    let entries ← IO.FS.readFile "/proc/self/environ"
    return (Text.split '\x00' entries.toList).filterMap variableOf?
  catch _ => return []

/-- The files that can be read. -/
def readFiles (paths : List String) : IO Files :=
  paths.filterMapM fun (path : String) => do
    try return some (path, ← IO.FS.readFile path) catch _ => return none

/-- A seed from the system. -/
def readEntropy : IO UInt64 := do
  return (← IO.getRandomBytes 8).foldl (fun n b => n * 256 + b.toUInt64) 0

end TierBudget.CommandLine

section

open TierBudget.CommandLine

/-- Runs a command line. -/
def main (words : List String) : IO UInt32 := do
  let vars ← readVariables
  let files ← readFiles (pathsOf words vars)
  let outcome := respond words vars files (← readEntropy)
  match outcome with
  | .printed output warnings =>
    IO.print output
    warnings.forM IO.eprintln
  | .failed cause => IO.eprintln s!"Error: {cause.message}"
  | .misused => IO.eprintln helpText
  | .overflowed => IO.eprintln "attempt to add with overflow"
  return outcome.exitCode

end
