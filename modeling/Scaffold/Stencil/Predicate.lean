import Scaffold.Stencil.Args
import Scaffold.Text.Case

/-!
# Tests

A test decides something about a value: `x is defined`, `x is divisibleby(3)`.
`Predicate.find?` finds one by its name.
-/

namespace Scaffold.Stencil

open Scaffold

/-- A test: decides about a value, given further arguments. -/
abbrev Predicate := Value → Args → Except Fault Bool

namespace Predicate

/-- A test without arguments. -/
def ofValue (p : Value → Bool) : Predicate := fun v args => do
  let _ ← args.atMost 0
  return p v

/-- A test that compares with another value. -/
def ofPair (p : Value → Value → Except Fault Bool) : Predicate := fun v args => do
  let l ← args.atMost 1
  p v (← Args.required l 0)

/-- A test that compares with another value and never fails. -/
def ofOrder (p : Value → Value → Bool) : Predicate := ofPair fun a b => .ok (p a b)

/-- A test of two texts. -/
def ofTexts (p : List Char → List Char → Bool) : Predicate := ofPair fun a b => do
  return p (← Args.asText a).toList (← Args.asText b).toList

/-- Whether a whole number leaves no remainder. -/
def divides (a b : Value) : Bool :=
  match Value.operands? a b with
  | some (.ints x y) => y ≠ 0 && x % y == 0
  | some (.floats x y) => Decimal.remainder x y == 0.0
  | none => false

/-- Whether two values are one and the same: neither of them holds others, and they are equal
without regard to `1` and `1.0` being equal too. -/
def same (a b : Value) : Bool :=
  match a, b with
  | .int m, .int n => m == n
  | .float x, .float y => x == y
  | .str s _, .str t _ => s == t
  | .bool x, .bool y => x == y
  | .none, .none => true
  | .undefined, .undefined => true
  | _, _ => false

/-- The tests that do not name other tests or filters. -/
def basic? : String → Option Predicate
  | "defined" => some (ofValue fun v => !v.isUndefined)
  | "undefined" => some (ofValue Value.isUndefined)
  | "none" => some (ofValue Value.isNone)
  | "safe" | "escaped" => some (ofValue fun
    | .str _ safe => safe
    | _ => false)
  | "boolean" => some (ofValue fun v => v.kind == .bool)
  | "odd" => some (ofValue fun v => v.asInt?.any fun n => n % 2 != 0)
  | "even" => some (ofValue fun v => v.asInt?.any fun n => n % 2 == 0)
  | "number" => some (ofValue fun v => v.kind == .number)
  | "integer" | "int" => some (ofValue fun
    | .int _ => true
    | _ => false)
  | "float" => some (ofValue fun
    | .float _ => true
    | _ => false)
  | "string" => some (ofValue fun v => v.kind == .str)
  | "sequence" => some (ofValue fun v => v.kind == .seq)
  | "iterable" => some (ofValue fun v => v.iterate?.isSome)
  | "mapping" => some (ofValue fun v => v.kind == .map)
  | "true" => some (ofValue fun
    | .bool b => b
    | _ => false)
  | "false" => some (ofValue fun
    | .bool b => !b
    | _ => false)
  | "lower" => some (ofValue fun v => v.display.toList.all Text.isLowercase)
  | "upper" => some (ofValue fun v => v.display.toList.all Text.isUppercase)
  | "startingwith" => some (ofTexts fun s t => t.isPrefixOf s)
  | "endingwith" => some (ofTexts fun s t => t.reverse.isPrefixOf s.reverse)
  | "divisibleby" => some (ofOrder divides)
  | "eq" | "equalto" | "==" => some (ofOrder Value.equal)
  | "ne" | "!=" => some (ofOrder fun a b => !a.equal b)
  | "lt" | "lessthan" | "<" => some (ofOrder fun a b => a.order b == .lt)
  | "le" | "<=" => some (ofOrder fun a b => a.order b != .gt)
  | "gt" | "greaterthan" | ">" => some (ofOrder fun a b => a.order b == .gt)
  | "ge" | ">=" => some (ofOrder fun a b => a.order b != .lt)
  | "in" => some (ofPair fun a b => b.contains a)
  | "sameas" => some (ofOrder same)
  | _ => none

/-- The names of all filters. -/
def filterNames : List String :=
  ["safe", "escape", "e", "lower", "upper", "title", "capitalize", "replace", "trim", "length",
    "count", "dictsort", "items", "reverse", "join", "split", "lines", "default", "d", "round",
    "abs", "int", "float", "attr", "first", "last", "min", "max", "sort", "list", "string",
    "bool", "batch", "slice", "sum", "indent", "select", "reject", "selectattr", "rejectattr",
    "map", "groupby", "unique", "chain", "zip", "pprint", "format"]

/-- The test with a name. -/
def find? (name : String) : Option Predicate :=
  match name with
  | "filter" => some (ofValue fun v => v.asText?.any filterNames.contains)
  | "test" => some (ofValue fun v => v.asText?.any fun s =>
      s == "filter" || s == "test" || (basic? s).isSome)
  | name => basic? name

end Predicate

end Scaffold.Stencil
