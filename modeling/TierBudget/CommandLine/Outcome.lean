import TierBudget.Settings.Load
/-!
# Outcomes of the command line

What a command line leads to, and the exit code and the texts that go with it.
-/

namespace TierBudget.CommandLine

/-- Why a command fails. -/
inductive Failure where
  | settings (error : SettingsError)
  | unreadableWeights (path : String)
  | malformedWeights (path : String)
  | unknownEndpoint (id path : String)
  | noEndpoints (path : String)
deriving DecidableEq

/-- The text of a failure. -/
def Failure.message : Failure → String
  | .settings _ => SettingsError.unreadable.message
  | .unreadableWeights path => s!"Failed to read weights file: {path}"
  | .malformedWeights path => s!"Failed to parse weights JSON: {path}"
  | .unknownEndpoint id path => s!"Endpoint '{id}' is not in {path}"
  | .noEndpoints path => s!"No endpoints in {path}"

/-- What a command line leads to. -/
inductive Outcome where
  /-- A text on the standard output, and lines of warnings. -/
  | printed (output : String) (warnings : List String)
  | failed (cause : Failure)
  /-- The command line makes no sense. -/
  | misused
  /-- A sum of counts leaves the 32-bit range. -/
  | overflowed
deriving DecidableEq

/-- The exit code of an outcome. -/
def Outcome.exitCode : Outcome → UInt32
  | .printed .. => 0
  | .failed _ => 1
  | .misused => 2
  | .overflowed => 101

end TierBudget.CommandLine
