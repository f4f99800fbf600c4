/-!
# Tokens

What a document consists of: marks for the start and end of structures, their
entries, and scalars.
-/

namespace StepGraph

namespace Yaml

inductive Token where
  | streamEnd
  | documentStart
  | documentEnd
  | version (major minor : Nat)
  | tagDirective (handle replacement : List Char)
  | blockSequenceStart
  | blockMappingStart
  | blockEnd
  | flowSequenceStart
  | flowSequenceEnd
  | flowMappingStart
  | flowMappingEnd
  | blockEntry
  | flowEntry
  | key
  | value
  | aliasOf (name : List Char)
  | anchor (name : List Char)
  | tag (handle suffix : List Char)
  | scalar (plain : Bool) (text : List Char)
  /-- What follows cannot be cut into tokens. -/
  | broken
  deriving DecidableEq

end Yaml

end StepGraph
