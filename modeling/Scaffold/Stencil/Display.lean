import Scaffold.Decimal.Shortest
import Scaffold.Stencil.Value
import Scaffold.Text.Quoted

/-!
# How values are written

`Value.display` is what a stencil prints for a value: texts as they are, and inside of lists
and maps between quotes. `Value.outline` sets every item on a line of its own.
-/

namespace Scaffold.Stencil

open Scaffold

/-- Doubles are written without exponent, and a whole one ends in `.0`. -/
def floatStyle : Decimal.Style where
  nan := "NaN"
  infinity := "inf"
  negativeInfinity := "-inf"
  isPositional := fun _ => true

namespace Value

mutual

/-- A value as an item of a list or a map. -/
def inspect : Value → String
  | undefined => "undefined"
  | none => "None"
  | bool b => if b then "True" else "False"
  | int n => toString n
  | float x => floatStyle.write x
  | str s _ => Text.quote s
  | list l _ => "[" ++ inspectItems l ++ "]"
  | group k l => "[" ++ inspect k ++ ", [" ++ inspectItems l ++ "]]"
  | map e => "\x7b" ++ inspectEntries e ++ "\x7d"
  | named e => "\x7b" ++ inspectNamed e ++ "\x7d"
  | namespaceRef _ => "\x7b\x7d"
  | macroRef _ => "<macro>"
  | loopRef _ => "<loop>"
  | function f => f

def inspectItems : List Value → String
  | [] => ""
  | [v] => inspect v
  | v :: rest => inspect v ++ ", " ++ inspectItems rest

def inspectEntries : List (Value × Value) → String
  | [] => ""
  | [(k, v)] => inspect k ++ ": " ++ inspect v
  | (k, v) :: rest => inspect k ++ ": " ++ inspect v ++ ", " ++ inspectEntries rest

def inspectNamed : List (String × Value) → String
  | [] => ""
  | [(k, v)] => Text.quote k ++ ": " ++ inspect v
  | (k, v) :: rest => Text.quote k ++ ": " ++ inspect v ++ ", " ++ inspectNamed rest

end

/-- What a stencil prints for a value. -/
def display : Value → String
  | undefined => ""
  | str s _ => s
  | v => inspect v

/-- The blanks before a line that is `depth` steps deep. -/
def outlineIndent (depth : Nat) : String := String.ofList (List.replicate (4 * depth) ' ')

mutual

/-- A value with every item on a line of its own, `depth` steps of four blanks deep. -/
def outline (depth : Nat) : Value → String
  | list l _ =>
    if l.isEmpty then "[]"
    else "[\n" ++ outlineItems (depth + 1) l ++ outlineIndent depth ++ "]"
  | map e =>
    if e.isEmpty then "\x7b\x7d"
    else "\x7b\n" ++ outlineEntries (depth + 1) e ++ outlineIndent depth ++ "\x7d"
  | undefined => "undefined"
  | none => "None"
  | bool b => if b then "True" else "False"
  | int n => toString n
  | float x => floatStyle.write x
  | str s _ => Text.quote s
  | named e => inspect (named e)
  | group k l => inspect (group k l)
  | namespaceRef i => inspect (namespaceRef i)
  | macroRef i => inspect (macroRef i)
  | loopRef i => inspect (loopRef i)
  | function f => f

def outlineItems (depth : Nat) : List Value → String
  | [] => ""
  | v :: rest => outlineIndent depth ++ outline depth v ++ ",\n" ++ outlineItems depth rest

def outlineEntries (depth : Nat) : List (Value × Value) → String
  | [] => ""
  | (k, v) :: rest =>
    outlineIndent depth ++ outline depth k ++ ": " ++ outline depth v ++ ",\n" ++
      outlineEntries depth rest

end

end Value

/-- One character of a text that goes into a page of markup. -/
def escapeChar (c : Char) : List Char :=
  match c with
  | '<' => "&lt;".toList
  | '>' => "&gt;".toList
  | '&' => "&amp;".toList
  | '"' => "&quot;".toList
  | '\'' => "&#x27;".toList
  | '/' => "&#x2f;".toList
  | c => [c]

/-- A text with the characters escaped that mean something in markup. -/
def escapeText (s : String) : String := String.ofList (s.toList.flatMap escapeChar)

/-- What is printed for a value where markup is escaped. Safe texts and the values without
text stay as they are. -/
def Value.displayEscaped : Value → String
  | .str s safe => if safe then s else escapeText s
  | .undefined => ""
  | .none => Value.inspect .none
  | .bool b => Value.inspect (.bool b)
  | .int n => Value.inspect (.int n)
  | .float x => Value.inspect (.float x)
  | v => escapeText v.inspect

end Scaffold.Stencil
