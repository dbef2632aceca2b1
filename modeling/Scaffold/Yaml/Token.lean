/-!
# Tokens of YAML

The tokens that a YAML text is made of. Block structure, which the text shows by
indentation, is made visible by start and end tokens.
-/

namespace Scaffold.Yaml

/-- How a scalar is written. -/
inductive Style where
  | plain | single | double | literal | folded
deriving DecidableEq, Repr

/-- A token of YAML. -/
inductive Token where
  | streamEnd
  | versionDirective (major minor : Nat)
  | tagDirective (handle lead : String)
  | documentStart
  | documentEnd
  | blockSequenceStart
  | blockMappingStart
  | blockEnd
  | flowSequenceStart
  | flowSequenceEnd
  | flowMappingStart
  | flowMappingEnd
  | blockEntry
  | flowEntry
  | key
  | value
  | alias (name : String)
  | anchor (name : String)
  | tag (handle suffix : String)
  | scalar (value : String) (style : Style)
deriving DecidableEq, Repr

end Scaffold.Yaml
