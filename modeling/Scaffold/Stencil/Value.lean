import Scaffold.Decimal.Binary
import Scaffold.Stencil.Fault

/-!
# Values of the stencil language

`Value` is what expressions yield. Values of all kinds are ordered, first by kind; numbers
compare by what they stand for, so `1` equals `1.0`, and only equality lets a flag stand for
`0` or `1`. Namespaces, macros and loops are references: a run keeps what they refer to.
-/

namespace Scaffold.Stencil

/-- A value of the stencil language. -/
inductive Value where
  | undefined
  | none
  | bool (yes : Bool)
  | int (n : Int)
  | float (x : Float)
  /-- A text; a safe one is not escaped. -/
  | str (text : String) (safe : Bool)
  /-- Items in order; lazy ones come from a range, a slice or a filter. -/
  | list (items : List Value) (isLazy : Bool)
  /-- Values by key, in the order of iteration. -/
  | map (entries : List (Value × Value))
  /-- Named arguments on their way to a callee. -/
  | named (entries : List (String × Value))
  /-- The items that have a common key. -/
  | group (key : Value) (members : List Value)
  | namespaceRef (id : Nat)
  | macroRef (id : Nat)
  | loopRef (id : Nat)
  /-- A function that is always there. -/
  | function (name : String)
deriving Inhabited

/-- What an integer with a sign in 128 bits is below. -/
def intLimit : Int := Decimal.pow2 127

/-- What a size with a sign in 64 bits is below. -/
def sizeLimit : Int := Decimal.pow2 63

/-- What a number of places, with a sign in 32 bits, is below. -/
def placesLimit : Int := Decimal.pow2 31

namespace Value

/-- A plain text. -/
abbrev text (s : String) : Value := .str s false

/-- Items that are stored. -/
abbrev items (l : List Value) : Value := .list l false

/-- The kinds of values. -/
inductive Kind where
  | undefined | none | bool | number | str | seq | map | iterable | plain
deriving DecidableEq, Repr

/-- The place of a kind in the order of values. -/
def Kind.rank : Kind → Nat
  | undefined => 0
  | none => 1
  | bool => 2
  | number => 3
  | str => 4
  | seq => 5
  | map => 6
  | iterable => 7
  | plain => 8

/-- The kind of a value. -/
def kind : Value → Kind
  | undefined => .undefined
  | none => .none
  | bool _ => .bool
  | int _ | float _ => .number
  | str .. => .str
  | list _ isLazy => if isLazy then .iterable else .seq
  | group .. => .seq
  | map _ | named _ | namespaceRef _ => .map
  | macroRef _ | loopRef _ | function _ => .plain

def isUndefined : Value → Bool
  | undefined => true
  | _ => false

def isNone : Value → Bool
  | none => true
  | _ => false

/-- The text of a text. -/
def asText? : Value → Option String
  | str s _ => some s
  | _ => Option.none

/-- The whole number that a number is equal to; a flag counts as `0` or `1`. -/
def asInt? : Value → Option Int
  | bool b => some (if b then 1 else 0)
  | int n => some n
  | float x => Decimal.toInt? x
  | _ => Option.none

/-- The double that stands for a number or a flag. -/
def asFloat? : Value → Option Float
  | bool b => some (if b then 1.0 else 0.0)
  | int n => some (if n < 0 then -Float.ofNat n.natAbs else Float.ofNat n.natAbs)
  | float x => some x
  | _ => Option.none

/-- What counts as true: what is neither empty nor zero. -/
def isTrue : Value → Bool
  | undefined | none => false
  | bool b => b
  | int n => n ≠ 0
  | float x => x != 0.0
  | str s _ => !s.isEmpty
  | list l _ => !l.isEmpty
  | map e => !e.isEmpty
  | named e => !e.isEmpty
  | group .. | namespaceRef _ | macroRef _ | loopRef _ | function _ => true

/-- The order of doubles in which every one has a place: the negative zero is below the other
one, and what is no number is above all others. -/
def compareFloat (x y : Float) : Ordering :=
  if x < y then .lt
  else if x > y then .gt
  else if x.isNaN then (if y.isNaN then .eq else .gt)
  else if y.isNaN then .lt
  else if x == 0.0 then (if 1.0 / x < 1.0 / y then .lt else if 1.0 / x > 1.0 / y then .gt else .eq)
  else .eq

/-- The order of two numbers: as integers where both are, as doubles otherwise. A double and an
integer that no double stands for compare as integers. -/
def compareNumber (a b : Value) : Ordering :=
  match a, b with
  | int x, int y => compare x y
  | a, b =>
    match a.asFloat?, b.asFloat? with
    | some x, some y =>
      match compareFloat x y, a.asInt?, b.asInt? with
      | .eq, some m, some n => compare m n
      | o, _, _ => o
    | _, _ => .eq

mutual

/-- The order of values. -/
def order (a b : Value) : Ordering :=
  if a.kind.rank ≠ b.kind.rank then compare a.kind.rank b.kind.rank
  else
    match a, b with
    | str s _, str t _ => compare s t
    | list l _, list m _ => orderList l m
    | group k l, group j m =>
      match order k j with
      | .eq => orderList l m
      | o => o
    | map e, map f => orderEntries e f
    | bool x, bool y => compare x.toNat y.toNat
    | a, b => compareNumber a b

/-- The order of sequences: by the first items that differ, else by length. -/
def orderList : List Value → List Value → Ordering
  | [], [] => .eq
  | [], _ :: _ => .lt
  | _ :: _, [] => .gt
  | a :: l, b :: m =>
    match order a b with
    | .eq => orderList l m
    | o => o

/-- The order of maps: as sequences of pairs. -/
def orderEntries : List (Value × Value) → List (Value × Value) → Ordering
  | [], [] => .eq
  | [], _ :: _ => .lt
  | _ :: _, [] => .gt
  | (k, v) :: e, (l, w) :: f =>
    match order k l with
    | .eq =>
      match order v w with
      | .eq => orderEntries e f
      | o => o
    | o => o

end

/-- The value under a key. -/
def findKey (key : Value) : List (Value × Value) → Option Value
  | [] => Option.none
  | (k, v) :: rest => if order k key = .eq then some v else findKey key rest

/-- Stores a value under a key of a map whose keys are in order. -/
def insertKey (key value : Value) : List (Value × Value) → List (Value × Value)
  | [] => [(key, value)]
  | (k, v) :: rest =>
    match order key k with
    | .lt => (key, value) :: (k, v) :: rest
    | .eq => (k, value) :: rest
    | .gt => (k, v) :: insertKey key value rest

/-- The map of a list of pairs, in the order of the keys. -/
def mapOf (pairs : List (Value × Value)) : Value :=
  .map (pairs.foldl (fun m p => insertKey p.1 p.2 m) [])

/-- The map of named values, in the given order. -/
def record (fields : List (String × Value)) : Value :=
  .map (fields.map fun f => (text f.1, f.2))

/-- Whether two numbers, or a number and a flag, stand for the same number. -/
def equalNumber (a b : Value) : Bool :=
  match a.asInt?, b.asInt? with
  | some x, some y => x == y
  | _, _ =>
    match a.asFloat?, b.asFloat? with
    | some x, some y => x == y
    | _, _ => false

mutual

/-- Equality of values: lists item by item, maps key by key whatever their order. -/
def equal : Value → Value → Bool
  | none, none => true
  | undefined, undefined => true
  | str s _, str t _ => s == t
  | list l _, list m _ => equalList l m
  | group k l, group j m => equal k j && equalList l m
  | group k l, list [j, list m _] _ => equal k j && equalList l m
  | list [j, list m _] _, group k l => equal j k && equalList m l
  | map e, map f => e.length == f.length && equalEntries e f
  | namespaceRef i, namespaceRef j => i == j
  | macroRef i, macroRef j => i == j
  | loopRef i, loopRef j => i == j
  | function f, function g => f == g
  | a, b => equalNumber a b

def equalList : List Value → List Value → Bool
  | [], [] => true
  | a :: l, b :: m => equal a b && equalList l m
  | _, _ => false

/-- Whether every entry is also one of the other map. -/
def equalEntries : List (Value × Value) → List (Value × Value) → Bool
  | [], _ => true
  | (k, v) :: e, f =>
    (match findKey k f with
      | some w => equal v w
      | Option.none => false) && equalEntries e f

end

/-- The place that an index stands for in a sequence of a length; negative ones count from
the end. -/
def place? (index : Value) (length : Nat) : Option Nat :=
  match index.asInt? with
  | some i => if 0 ≤ i then some i.toNat else if i.natAbs ≤ length then some (length - i.natAbs) else Option.none
  | Option.none => Option.none

/-- The items that a loop goes through; none for what has no items. -/
def iterate? : Value → Option (List Value)
  | undefined | none => some []
  | str s _ => some (s.toList.map fun c => text (String.singleton c))
  | list l _ => some l
  | group k l => some [k, .list l true]
  | map e => some (e.map (·.1))
  | named e => some (e.map fun p => text p.1)
  | _ => Option.none

/-- The number of items or characters. -/
def length? : Value → Option Nat
  | str s _ => some s.length
  | list l _ => some l.length
  | group .. => some 2
  | map e => some e.length
  | named e => some e.length
  | _ => Option.none

end Value

end Scaffold.Stencil
