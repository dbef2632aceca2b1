import Scaffold.Yaml.Decode

/-!
# Decoding values

A value that was read before is decoded without a place. Nothing stands for an empty record
or list, and the variants around anything but a variant do not count.
-/

namespace Scaffold.Yaml.Value

/-- The entries of a mapping. -/
def entriesOf (expected : String) (v : Value) : Except Fault (List (Value × Value)) :=
  match v.untagged with
  | map e => .ok e
  | null => .ok []
  | other => wrongKind other.describe expected

/-- The items of a sequence. -/
def itemsOf (v : Value) : Except Fault (List Value) :=
  match v.untagged with
  | seq l => .ok l
  | null => .ok []
  | other => wrongKind other.describe "a sequence"

/-- The text of a text. -/
def textOf (expected : String) (v : Value) : Except Fault String :=
  match v.untagged with
  | str t => .ok t
  | other => wrongKind other.describe expected

/-- The flag of a flag. -/
def flagOf (v : Value) : Except Fault Bool :=
  match v.untagged with
  | bool b => .ok b
  | other => wrongKind other.describe "a boolean"

/-- A number that is not negative. -/
def countOf (v : Value) : Except Fault Nat :=
  match v.untagged with
  | int n =>
    if 0 ≤ n then .ok n.toNat
    else mismatch s!"invalid value: {(int n).describe}, expected usize"
  | other => wrongKind other.describe "usize"

/-- A text names a variant, and so does a tag; after a tag nothing may stand. -/
def variantOf : Value → Except Fault (String × Except Fault Unit)
  | str t => .ok (t, .ok ())
  | tagged tag v =>
    let content := match v.untagged with
      | null => .ok ()
      | other => wrongKind other.describe "unit"
    .ok (((markedTag tag).drop 1).toString, content)
  | other => wrongKind other.describe "a Value::Tagged enum"

instance : Source Value where
  value v := .ok v
  entries := entriesOf
  under _ e := e.2
  text := textOf
  items := itemsOf
  flag := flagOf
  count := countOf
  variant := variantOf
  skip _ := .ok ()
  locate _ r := r

end Scaffold.Yaml.Value
