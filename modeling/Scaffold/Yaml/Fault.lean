/-!
# Faults of YAML texts

Why a text is no YAML, or is YAML that does not decode. What a value should have been is told
together with the place of the value, a path of names and numbers from the top.
-/

namespace Scaffold.Yaml

/-- What is wrong with a YAML text. -/
inductive Fault where
  /-- The text does not follow the grammar. -/
  | malformed
  | unknownAnchor
  | endOfText
  | tooDeep
  | tooManyCopies
  | severalDocuments
  /-- A value does not decode; the path is empty for the top of the text. -/
  | mismatch (path : Option String) (reason : String)
deriving DecidableEq, Repr

namespace Fault

/-- The sentence for a fault. -/
def message : Fault → String
  | malformed => "yaml syntax error"
  | unknownAnchor => "unknown anchor"
  | endOfText => "EOF while parsing a value"
  | tooDeep => "recursion limit exceeded"
  | tooManyCopies => "repetition limit exceeded"
  | severalDocuments =>
    "deserializing from YAML containing more than one document is not supported"
  | mismatch path reason =>
    match path with
    | none => reason
    | some "." => reason
    | some p => p ++ ": " ++ reason

/-- Tells the place of a mismatch that has none yet. -/
def at_ (path : String) : Fault → Fault
  | mismatch none reason => mismatch (some path) reason
  | f => f

end Fault

/-- A value that does not decode. -/
def mismatch {α : Type} (reason : String) : Except Fault α := .error (.mismatch none reason)

end Scaffold.Yaml
