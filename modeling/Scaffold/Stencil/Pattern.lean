import Scaffold.Decimal.Fixed
import Scaffold.Decimal.Reading
import Scaffold.Stencil.Args

/-!
# Patterns

A pattern such as `%05.2f of %s` is a text with slots. A slot has flags, a least width, a
number of places and a letter for the notation.
-/

namespace Scaffold.Stencil

open Scaffold

/-- How a slot of a pattern is filled. -/
structure Slot where
  left : Bool := false
  plus : Bool := false
  blank : Bool := false
  zero : Bool := false
  marked : Bool := false
  width : Nat := 0
  places : Option Nat := none

namespace Slot

/-- Reads the flags of a slot. -/
def readFlags (slot : Slot) : List Char → Slot × List Char
  | '-' :: rest => readFlags { slot with left := true } rest
  | '+' :: rest => readFlags { slot with plus := true } rest
  | ' ' :: rest => readFlags { slot with blank := true } rest
  | '0' :: rest => readFlags { slot with zero := true } rest
  | '#' :: rest => readFlags { slot with marked := true } rest
  | rest => (slot, rest)

/-- Reads a number; zero if there is none. -/
def readNumber (text : List Char) : Nat × List Char :=
  ((Decimal.readDigits? 10 (text.takeWhile Char.isDigit)).getD 0, text.dropWhile Char.isDigit)

/-- Reads what stands between the percent sign and the letter. -/
def read (text : List Char) : Slot × List Char :=
  let (slot, rest) := readFlags {} text
  let (width, rest) := readNumber rest
  match rest with
  | '.' :: rest =>
    let (places, rest) := readNumber rest
    ({ slot with width, places := some places }, rest)
  | rest => ({ slot with width }, rest)

/-- Fills up to the least width. -/
def pad (slot : Slot) (sign body : String) (isNumber : Bool) : String :=
  let missing := slot.width - (sign.length + body.length)
  let fill (c : Char) := String.ofList (List.replicate missing c)
  if slot.left then sign ++ body ++ fill ' '
  else if slot.zero && isNumber then sign ++ fill '0' ++ body
  else fill ' ' ++ sign ++ body

/-- The sign of a number in a slot. -/
def sign (slot : Slot) (negative : Bool) : String :=
  if negative then "-" else if slot.plus then "+" else if slot.blank then " " else ""

/-- An integer in a base. -/
def writeInt (slot : Slot) (base : Nat) (isUpper : Bool) (mark : String) (n : Int) : String :=
  let digits := String.ofList (Nat.toDigits base n.natAbs)
  let digits := String.ofList
    (List.replicate ((slot.places.getD 0) - digits.length) '0') ++ digits
  let digits := if isUpper then digits.toUpper else digits
  slot.pad (slot.sign (n < 0) ++ (if slot.marked then mark else "")) digits true

/-- A double with a number of places. -/
def writeFixed (slot : Slot) (x : Float) : String :=
  match Decimal.Binary.ofFloat? x with
  | none => slot.pad (slot.sign (x < 0.0)) (if x.isNaN then "nan" else "inf") false
  | some b => slot.pad (slot.sign b.negative) (Decimal.fixed b (slot.places.getD 6)) true

/-- A double with a power of ten. -/
def writeScientific (slot : Slot) (isUpper : Bool) (x : Float) : String :=
  match Decimal.Binary.ofFloat? x with
  | none => slot.pad (slot.sign (x < 0.0)) (if x.isNaN then "nan" else "inf") false
  | some b =>
    let places := slot.places.getD 6
    let (n, p) := Decimal.fixedScientific b places
    let digits :=
      if places = 0 then toString n else Decimal.Expansion.positional ⟨n, -(places : Int)⟩
    let power := toString p.natAbs
    let power := if power.length < 2 then "0" ++ power else power
    let e := if isUpper then "E" else "e"
    slot.pad (slot.sign b.negative) (digits ++ e ++ (if p < 0 then "-" else "+") ++ power) true

/-- A text, cut to the number of places. -/
def writeText (slot : Slot) (s : String) : String :=
  let s := match slot.places with
    | some n => String.ofList (s.toList.take n)
    | none => s
  slot.pad "" s false

/-- Fills a slot with a value. -/
def fill (slot : Slot) (letter : Char) (v : Value) : Except Fault String :=
  let whole : Except Fault Int :=
    match v with
    | .float x => .ok (Decimal.toIntTruncated x)
    | v =>
      match v.asInt? with
      | some n => .ok n
      | none => .error .invalidOperation
  let double : Except Fault Float :=
    match v.asFloat? with
    | some x => .ok x
    | none => .error .invalidOperation
  match letter with
  | 's' => .ok (slot.writeText v.display)
  | 'r' => .ok (slot.writeText v.inspect)
  | 'd' | 'i' | 'u' => whole.map (slot.writeInt 10 false "")
  | 'x' => whole.map (slot.writeInt 16 false "0x")
  | 'X' => whole.map (slot.writeInt 16 true "0X")
  | 'o' => whole.map (slot.writeInt 8 false "0o")
  | 'f' | 'F' => double.map slot.writeFixed
  | 'e' => double.map (slot.writeScientific false)
  | 'E' => double.map (slot.writeScientific true)
  | 'g' | 'G' => double.map fun x => slot.pad "" (floatStyle.write x) true
  | 'c' =>
    match v with
    | .str s _ => if s.length = 1 then .ok (slot.writeText s) else .error .invalidOperation
    | v =>
      match v.asInt? with
      | some n => .ok (slot.writeText (String.singleton (Char.ofNat n.toNat)))
      | none => .error .invalidOperation
  | _ => .error .invalidOperation

end Slot

/-- Fills the slots of a pattern one after the other; `fuel` bounds its length. -/
def fillPattern : Nat → List Char → List Value → Except Fault String
  | 0, _, _ => .ok ""
  | _, [], args => if args.isEmpty then .ok "" else .error .tooManyArguments
  | fuel + 1, '%' :: '%' :: rest, args => ("%" ++ ·) <$> fillPattern fuel rest args
  | fuel + 1, '%' :: rest, args =>
    let (slot, rest) := Slot.read rest
    match rest, args with
    | letter :: rest, v :: args => do
      let s ← slot.fill letter v
      return s ++ (← fillPattern fuel rest args)
    | _ :: _, [] => .error .missingArgument
    | [], _ => .error .invalidOperation
  | fuel + 1, c :: rest, args => (String.singleton c ++ ·) <$> fillPattern fuel rest args

end Scaffold.Stencil
