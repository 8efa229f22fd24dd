import TierBudget.CommandLine.Flag
/-!
# Lexemes of the command line

`lex` reads the words of a command line as options and operands. The value of an option stands in
the same word, after an equals sign or right after the letter, or is the next word, which then must
not begin with a hyphen. Letters can share a hyphen. After the word `--` no word is an option.
Reading ends at the first word that makes no sense.
-/

namespace TierBudget.CommandLine

/-- A part of a command line. -/
inductive Lexeme where
  /-- An option; the value of one that has none is empty. -/
  | option (flag : Flag) (value : String)
  /-- A word that is no option, and the words after it. -/
  | operand (word : String) (rest : List String)
  /-- The words after `--`. -/
  | literal (words : List String)
  /-- A word that makes no sense. -/
  | fault
deriving DecidableEq

/-- How a word of options ends. -/
inductive Ending where
  | complete
  /-- The value of an option is to come in the next word. -/
  | awaits (flag : Flag)
  | fault
deriving DecidableEq

/-- Whether a word is no option. -/
def isOperand (word : String) : Bool := word.toList.head? != some '-' || word == "-"

/-- The text without an equals sign in front of it. -/
def afterEquals : List Char → List Char
  | '=' :: r => r
  | r => r

/-- The options of the letters after one hyphen. -/
def lexLetters (flags : List Flag) : List Char → List Lexeme × Ending
  | [] => ([], .complete)
  | c :: r =>
    match flags.find? (·.letter? == some c) with
    | none => ([], .fault)
    | some f =>
      if f.hasValue then
        if r.isEmpty then ([], .awaits f)
        else ([.option f (.ofList (afterEquals r))], .complete)
      else
        let (lexemes, ending) := lexLetters flags r
        (.option f "" :: lexemes, ending)

/-- The option of the text after two hyphens. -/
def lexName (flags : List Flag) (cs : List Char) : List Lexeme × Ending :=
  let name := cs.takeWhile (· != '=')
  match flags.find? (·.name.toList == name), cs.drop name.length with
  | none, _ => ([], .fault)
  | some f, [] => if f.hasValue then ([], .awaits f) else ([.option f ""], .complete)
  | some f, _ :: value => if f.hasValue then ([.option f (.ofList value)], .complete) else ([], .fault)

/-- The options in a word that begins with a hyphen. -/
def lexOptions (flags : List Flag) : List Char → List Lexeme × Ending
  | '-' :: '-' :: name => lexName flags name
  | '-' :: letters => lexLetters flags letters
  | _ => ([], .fault)

/-- The lexemes of a list of words, when the given options are known. -/
def lex (flags : List Flag) : List String → List Lexeme
  | [] => []
  | word :: rest =>
    if isOperand word then .operand word rest :: lex flags rest
    else if word = "--" then [.literal rest]
    else
      match lexOptions flags word.toList with
      | (lexemes, .complete) => lexemes ++ lex flags rest
      | (lexemes, .fault) => lexemes ++ [.fault]
      | (lexemes, .awaits f) =>
        match rest with
        | [] => lexemes ++ [.fault]
        | value :: rest =>
          if isOperand value then lexemes ++ .option f value :: lex flags rest
          else lexemes ++ [.fault]

end TierBudget.CommandLine
