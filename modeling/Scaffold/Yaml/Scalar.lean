import Scaffold.Decimal.Reading
import Scaffold.Decimal.Shortest
import Scaffold.Text.Quoted
import Scaffold.Yaml.Fault
import Scaffold.Yaml.Token

/-!
# What scalars stand for

A scalar between quotes is a text. A plain one is nothing, a flag, a whole number, a floating
point number or a text, whichever it reads as first; a tag of the core schema forces one of
these. Digits after a leading zero are a text, and so are numbers that no word of 128 bits
holds and that are no doubles.
-/

namespace Scaffold.Yaml

open Decimal (readDigits? readFloat?)

/-- What a scalar stands for. -/
inductive Scalar where
  | null
  | bool (yes : Bool)
  /-- A whole number that a signed or unsigned word of 64 bits holds. -/
  | int (n : Int)
  /-- A whole number that only a word of 128 bits holds. -/
  | wide (n : Int)
  | float (x : Float)
  | text (text : String)
deriving Inhabited

namespace Scalar

/-- The words for nothing. -/
def isNullWord (text : String) : Bool := ["null", "Null", "NULL", "~"].contains text

/-- Reads a flag. -/
def readBool? (text : String) : Option Bool :=
  if ["true", "True", "TRUE"].contains text then some true
  else if ["false", "False", "FALSE"].contains text then some false
  else none

/-- The bases that a number can announce. -/
def base? : List Char → Option (Nat × List Char)
  | '0' :: 'x' :: rest => some (16, rest)
  | '0' :: 'o' :: rest => some (8, rest)
  | '0' :: 'b' :: rest => some (2, rest)
  | _ => none

/-- Digits after a leading zero, which are no number. -/
def isZeroLed (digits : List Char) : Bool :=
  match digits with
  | '0' :: c :: rest => (c :: rest).all Char.isDigit
  | _ => false

/-- Reads the size of a whole number: digits, or a base and digits of it. -/
def readSize? (text : List Char) : Option Nat :=
  match base? text with
  | some (base, digits) => readDigits? base digits
  | none => if isZeroLed text then none else readDigits? 10 text

/-- Reads a whole number of any size, with an optional sign. -/
def readInt? (text : String) : Option Int :=
  match text.toList with
  | '+' :: rest => (readSize? rest).map Int.ofNat
  | '-' :: rest => (readSize? rest).map fun n => -Int.ofNat n
  | rest => (readSize? rest).map Int.ofNat

/-- A whole number as a scalar, if a word holds it. -/
def ofInt? (n : Int) : Option Scalar :=
  if -Decimal.pow2 63 ≤ n ∧ n < Decimal.pow2 64 then some (.int n)
  else if -Decimal.pow2 127 ≤ n ∧ n < Decimal.pow2 128 then some (.wide n)
  else none

/-- Reads a floating point number. -/
def readNumber? (text : String) : Option Float :=
  let unsigned := match text.toList with
    | '+' :: rest => rest
    | rest => rest
  let infinite := [".inf", ".Inf", ".INF"]
  if text.startsWith "++" || text.startsWith "+-" then none
  else if infinite.contains (String.ofList unsigned) then some (1.0 / 0.0)
  else if (infinite.map ("-" ++ ·)).contains text then some (-1.0 / 0.0)
  else if [".nan", ".NaN", ".NAN"].contains text then some (0.0 / 0.0)
  else (readFloat? unsigned).filter Float.isFinite

/-- Whether a text is a sign and digits after a leading zero. -/
def isPadded (text : String) : Bool :=
  match text.toList with
  | '+' :: rest | '-' :: rest => isZeroLed rest
  | rest => isZeroLed rest

/-- What a plain scalar without a tag stands for. -/
def ofPlain (text : String) : Scalar :=
  if text.isEmpty || isNullWord text then .null
  else
    match readBool? text with
    | some b => .bool b
    | none =>
      match (readInt? text).bind ofInt? with
      | some s => s
      | none =>
        if isPadded text then .text text
        else
          match readNumber? text with
          | some x => .float x
          | none => .text text

/-- The tags of the core schema start with this. -/
def coreSchema : String := "tag:yaml.org,2002:"

/-- What a scalar stands for. A tag of the core schema asks for a kind; any other makes a text
of it, unless it starts with a mark and so names a variant. -/
def ofTagged (tag : Option String) (style : Style) (text : String) : Except Fault Scalar :=
  let forced (read : Option Scalar) (kind : String) : Except Fault Scalar :=
    match read with
    | some s => .ok s
    | none => mismatch s!"invalid value: string {Text.quote text}, expected {kind}"
  match tag with
  | some tag =>
    if tag = coreSchema ++ "bool" then forced ((readBool? text).map .bool) "a boolean"
    else if tag = coreSchema ++ "int" then forced ((readInt? text).bind ofInt?) "an integer"
    else if tag = coreSchema ++ "float" then forced ((readNumber? text).map .float) "a float"
    else if tag = coreSchema ++ "null" then
      forced (if isNullWord text then some .null else none) "null"
    else if tag.startsWith "!" && style = .plain then .ok (ofPlain text)
    else .ok (.text text)
  | none => .ok (if style = .plain then ofPlain text else .text text)

/-- A floating point number in a sentence: without exponent, a whole one with `.0`. -/
def sentenceStyle : Decimal.Style where
  nan := "NaN"
  infinity := "inf"
  negativeInfinity := "-inf"
  isPositional := fun _ => true

/-- A scalar in a sentence that says what was found. -/
def describe : Scalar → String
  | null => "unit value"
  | bool b => s!"boolean `{b}`"
  | int n => s!"integer `{n}`"
  | wide n => s!"integer `{n}` as " ++ if n < 0 then "i128" else "u128"
  | float x => s!"floating point `{sentenceStyle.write x}`"
  | text t => s!"string {Text.quote t}"

end Scalar

end Scaffold.Yaml
