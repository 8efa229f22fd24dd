import TierBudget.Settings.Basic
/-!
# Texts of the command line

The texts about the program itself: its version, its settings and its use.
-/

namespace TierBudget.CommandLine

/-- The version of the command line. -/
def versionNumber : String := "0.3.0"

/-- The text about the version and the settings in force. -/
def overview (s : Settings) : String :=
  let scale := decimalText s.policy.scale.size.toNat
  "\n".intercalate [
    "Tierweight - Tier Endpoint Weights",
    .ofList (List.replicate 50 '═'),
    "",
    "Version Information:",
    s!"  CLI Version: {versionNumber}",
    "",
    "Configuration:",
    s!"  Fixed-point scale: {scale} ({scale} = 100%)",
    s!"  Minimum share: {Layout.plain.write s.policy.scale.minUnit}",
    s!"  Percent epsilon: {Layout.scientific.write s.policy.percentEpsilon}",
    s!"  Require settled commits: {s.requireSettled}",
    "",
    "Environment:",
    "  ℹ Override settings with TIERWEIGHT_<SECTION>__<KEY>, e.g. TIERWEIGHT_REBALANCE__SCALE=1000",
    "", ""]

/-- The text of the version. -/
def versionText : String := s!"tierweight {versionNumber}\n"

/-- The text of help. -/
def helpText : String :=
  "\n".intercalate [
    "Tierweight CLI - Tier Endpoint Weight Tooling",
    "",
    "Usage: tierweight [-v] [-c FILE] COMMAND",
    "",
    "Commands:",
    "  normalize -i FILE [--json]                     Normalize weights so they sum to exactly 100%",
    "  rebalance -i FILE -t ID -u SHARE [--json]      Set one endpoint's weight",
    "  split ID... [--json]                           Split a tier evenly across endpoints",
    "  detach -i FILE -t ID [--json]                  Remove an endpoint",
    "  simulate -i FILE [-n REQUESTS] [--seed SEED]   Sample weighted picks",
    "  info                                           Show version and configuration",
    "  help [COMMAND]                                 Show this text",
    ""]

end TierBudget.CommandLine
