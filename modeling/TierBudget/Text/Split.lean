/-!
# Splitting texts

`split` cuts a text at every occurrence of a character, so that a text without it is one part.
-/

namespace TierBudget.Text

/-- The parts of a text between the occurrences of `sep`. -/
def split (sep : Char) : List Char → List (List Char)
  | [] => [[]]
  | c :: r =>
    match split sep r with
    | [] => [[c]]
    | part :: parts => if c = sep then [] :: part :: parts else (c :: part) :: parts

end TierBudget.Text
