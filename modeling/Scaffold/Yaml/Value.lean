import Scaffold.Yaml.Scalar

/-!
# Values of YAML

`Value` is what a node stands for where nothing says what it should be. Mappings keep the
order of the text and have no key twice.
-/

namespace Scaffold.Yaml

/-- A value of YAML. -/
inductive Value where
  | null
  | bool (yes : Bool)
  | int (n : Int)
  | float (x : Float)
  | str (text : String)
  | seq (items : List Value)
  | map (entries : List (Value × Value))
  /-- A value with the name of a variant, less the mark in front. -/
  | tagged (tag : String) (value : Value)
deriving Inhabited

namespace Value

/-- A floating point number has no exponent where its first digit stands for a power of ten
from `-5` to `15`. -/
def floatStyle : Decimal.Style where
  nan := ".nan"
  infinity := ".inf"
  negativeInfinity := "-.inf"
  isPositional := fun k => -5 ≤ k ∧ k < 16

/-- A value without the variants around it. -/
def untagged : Value → Value
  | tagged _ v => untagged v
  | v => v

/-- A tag with exactly one mark in front of its name; the empty name keeps its own mark. -/
def markedTag (tag : String) : String :=
  if tag.startsWith "!" && 1 < tag.length then tag else "!" ++ tag

mutual

/-- Whether two keys are the same: mappings whatever the order of their entries. -/
def same : Value → Value → Bool
  | null, null => true
  | bool a, bool b => a == b
  | int a, int b => a == b
  | float a, float b => a == b || (a.isNaN && b.isNaN)
  | str a, str b => a == b
  | seq a, seq b => sameItems a b
  | map a, map b => a.length == b.length && sameEntries a b
  | tagged s a, tagged t b => markedTag s == markedTag t && same a b
  | _, _ => false

def sameItems : List Value → List Value → Bool
  | [], [] => true
  | a :: l, b :: m => same a b && sameItems l m
  | _, _ => false

/-- Whether every entry is one of the others. -/
def sameEntries : List (Value × Value) → List (Value × Value) → Bool
  | [], _ => true
  | (k, v) :: rest, f => (f.any fun e => same k e.1 && same v e.2) && sameEntries rest f

end

/-- A value in a sentence that says what was found. -/
def describe : Value → String
  | null => Scalar.describe .null
  | bool b => Scalar.describe (.bool b)
  | int n => Scalar.describe (.int n)
  | float x => Scalar.describe (.float x)
  | str t => Scalar.describe (.text t)
  | seq _ => "sequence"
  | map _ => "map"
  | tagged .. => "enum"

/-- The kind of a value with its article. -/
def kind : Value → String
  | null => "null"
  | bool _ => "a boolean"
  | int _ | float _ => "a number"
  | str _ => "a string"
  | seq _ => "a sequence"
  | map _ => "a mapping"
  | tagged .. => "a tagged value"

/-- The sentence for a key that a mapping already has. -/
def duplicateMessage : Value → String
  | null => "duplicate entry with null key"
  | bool b => s!"duplicate entry with key `{b}`"
  | int n => s!"duplicate entry with key {n}"
  | float x => s!"duplicate entry with key {floatStyle.write x}"
  | str t => s!"duplicate entry with key {Text.quote t}"
  | seq _ | map _ | tagged .. => "duplicate entry in YAML map"

/-- The text that a scalar stands for where a text is wanted. -/
def lenientText : Value → Except Fault String
  | null => .ok ""
  | bool b => .ok (toString b)
  | int n => .ok (toString n)
  | float x => .ok (floatStyle.write x)
  | str t => .ok t
  | tagged _ v => lenientText v
  | seq l => mismatch s!"expected a scalar, found {(seq l).kind}"
  | map e => mismatch s!"expected a scalar, found {(map e).kind}"

/-- The texts that a list of scalars stands for; nothing stands for no text. -/
def lenientTexts : Value → Except Fault (List String)
  | null => .ok []
  | seq l => l.mapM lenientText
  | v => mismatch s!"expected a sequence, found {v.kind}"

end Value

end Scaffold.Yaml
