import TierBudget.CommandLine.Lexeme
import TierBudget.Count
/-!
# Invocations

An `Invocation` is what a command line asks for: a command and the file of settings. `parse` reads
the words from left to right and stops at the first that asks for help or the version, or makes no
sense. The options of all commands may stand before the command's name or after it.
-/

namespace TierBudget.CommandLine

/-- The commands. -/
inductive CommandName where
  | normalize
  | rebalance
  | split
  | detach
  | simulate
  | info
deriving DecidableEq

/-- What is to be done. -/
inductive Command where
  | normalize (input : String) (json : Bool)
  | rebalance (input target : String) (unit : Float) (json : Bool)
  | split (ids : List String) (json : Bool)
  | detach (input target : String) (json : Bool)
  | simulate (input : String) (requests : Count) (seed : Option UInt64)
  | info
deriving DecidableEq

/-- A command and the file of settings. -/
structure Invocation where
  config : Option String
  command : Command
deriving DecidableEq

/-- Why a command line runs no command. -/
inductive Stop where
  /-- Help is asked for. -/
  | help
  /-- The version is asked for. -/
  | version
  /-- The command line makes no sense. -/
  | misuse
deriving DecidableEq

namespace CommandName

/-- The name of a command in texts. -/
def name : CommandName → String
  | .normalize => "normalize"
  | .rebalance => "rebalance"
  | .split => "split"
  | .detach => "detach"
  | .simulate => "simulate"
  | .info => "info"

/-- All commands. -/
def all : List CommandName := [.normalize, .rebalance, .split, .detach, .simulate, .info]

/-- The command of the given name. -/
def ofName? (s : String) : Option CommandName := all.find? (·.name == s)

/-- The options that a command has besides those of all commands. -/
def flags : CommandName → List Flag
  | .normalize => [.input, .json]
  | .rebalance => [.input, .target, .unit, .json]
  | .split => [.json]
  | .detach => [.input, .target, .json]
  | .simulate => [.input, .requests, .seed]
  | .info => []

/-- Whether a command takes operands. -/
def takesOperands (c : CommandName) : Bool := c == .split

end CommandName

/-- The options of all commands. -/
def commonFlags : List Flag := [.verbose, .config, .help]

/-- Options with their values, and operands. -/
structure Given where
  options : List (Flag × String)
  operands : List String
deriving DecidableEq

namespace Given

/-- The value of an option. -/
def value? (g : Given) (f : Flag) : Option String := g.options.lookup f

/-- Whether an option is given. -/
def has (g : Given) (f : Flag) : Bool := (g.value? f).isSome

/-- Adds an option. -/
def addOption (g : Given) (f : Flag) (value : String) : Except Stop Given :=
  if f = .help then .error .help
  else if f = .version then .error .version
  else if !f.accepts value || (g.has f && !f.mayRepeat) then .error .misuse
  else .ok { g with options := (f, value) :: g.options }

/-- Adds operands. -/
def addOperands (g : Given) (allowed : Bool) (words : List String) : Except Stop Given :=
  if allowed || words.isEmpty then .ok { g with operands := g.operands ++ words }
  else .error .misuse

/-- Adds what a lexeme says. -/
def add (operandsAllowed : Bool) (g : Given) : Lexeme → Except Stop Given
  | .option f value => g.addOption f value
  | .operand word _ => g.addOperands operandsAllowed [word]
  | .literal words => g.addOperands operandsAllowed words
  | .fault => .error .misuse

/-- What lexemes give. -/
def ofLexemes (operandsAllowed : Bool) (lexemes : List Lexeme) : Except Stop Given :=
  lexemes.foldlM (add operandsAllowed) ⟨[], []⟩

end Given

/-- The command of a name with its options and operands, if none that it needs is missing. -/
def command? (g : Given) : CommandName → Option Command
  | .normalize => return .normalize (← g.value? .input) (g.has .json)
  | .rebalance =>
    return .rebalance (← g.value? .input) (← g.value? .target) (← (g.value? .unit).bind readFloat)
      (g.has .json)
  | .split => if g.operands.isEmpty then none else some (.split g.operands (g.has .json))
  | .detach => return .detach (← g.value? .input) (← g.value? .target) (g.has .json)
  | .simulate =>
    return .simulate (← g.value? .input) (((g.value? .requests).bind readRequests).getD 10000)
      ((g.value? .seed).bind readSeed)
  | .info => some .info

/-- The name of the variable that names the file of settings. -/
def configVariable : String := "TIERWEIGHT_CONFIG"

/-- The file of settings that the options on one side of the command's name give, or else the
fallback, which then must not be empty. -/
def configOn (g : Given) (fallback : Option String) : Except Stop (Option String) :=
  match g.value? .config, fallback with
  | none, some s => if Flag.config.accepts s then .ok (some s) else .error .misuse
  | given, _ => .ok given

/-- The file of settings: an option after the command's name beats one before it, and both beat the
fallback. -/
def config? (before after : Given) (fallback : Option String) : Except Stop (Option String) := do
  let outer ← configOn before fallback
  let _ ← configOn after fallback
  return (after.value? .config).or outer

/-- What a request for help asks about: nothing, or one command. -/
def parseHelp : List String → Stop
  | [] => .help
  | [word] => if word = "help" || (CommandName.ofName? word).isSome then .help else .misuse
  | _ => .misuse

/-- Reads the words after the name of a command. -/
def parseCommand (c : CommandName) (before : Given) (words : List String)
    (fallback : Option String) : Except Stop Invocation := do
  let after ← Given.ofLexemes c.takesOperands (lex (commonFlags ++ c.flags) words)
  match command? after c with
  | none => throw .misuse
  | some command => return ⟨← config? before after fallback, command⟩

/-- Whether a lexeme is an option. -/
def Lexeme.isOption : Lexeme → Bool
  | .option .. => true
  | _ => false

/-- Reads a command line. The fallback is the file of settings where no option gives one. -/
def parse (words : List String) (fallback : Option String) : Except Stop Invocation := do
  let (options, others) := (lex (commonFlags ++ [.version]) words).span Lexeme.isOption
  let before ← Given.ofLexemes false options
  match others with
  | .operand word rest :: _ =>
    if word = "help" then throw (parseHelp rest)
    else match CommandName.ofName? word with
      | some c => parseCommand c before rest fallback
      | none => throw .misuse
  | _ => throw .misuse

end TierBudget.CommandLine
