/-!
# YAML tokens

The tokens of a YAML text no longer depend on lines and columns: the blocks that indentation makes
have tokens for their starts and ends, and a key of a mapping is marked in front even where only the
colon after it tells that it is one.
-/

namespace TierBudget.Yaml

/-- The tokens of YAML texts. -/
inductive Token where
  | version
  /-- What a handle of tags stands for. -/
  | tagHandle (handle meaning : String)
  | documentStart
  | documentEnd
  | blockSequence
  | blockMapping
  | blockEnd
  | flowSequence
  | flowSequenceEnd
  | flowMapping
  | flowMappingEnd
  | blockEntry
  | flowEntry
  | key
  | value
  | alias (name : String)
  | anchor (name : String)
  | tag (handle suffix : String)
  | text (plain : Bool) (s : String)
deriving DecidableEq

end TierBudget.Yaml
