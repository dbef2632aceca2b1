import Scaffold.Stencil.Display

/-!
# Operators of the stencil language

Integers are exact up to 128 bits and a result beyond that is a fault; an operation with a
double on either side is one on doubles. Quotient and remainder of integers are the Euclidean
ones; the remainder of doubles has the sign of the dividend. Texts and lists can be joined and
repeated.
-/

namespace Scaffold.Stencil

open Scaffold

namespace Value

/-- Integer results have to fit into 128 bits with a sign. -/
def checkedInt (n : Int) : Except Fault Value :=
  if -intLimit ≤ n ∧ n < intLimit then .ok (.int n) else .error .invalidOperation

/-- Two operands of an arithmetic operation. -/
inductive Operands where
  | ints (a b : Int)
  | floats (a b : Float)

/-- Brings two numbers to a common form; none if one of them is no number. -/
def operands? : Value → Value → Option Operands
  | .float x, b => b.asFloat?.map (.floats x)
  | a, .float y => a.asFloat?.map (.floats · y)
  | a, b =>
    match a.asInt?, b.asInt? with
    | some x, some y => if x < intLimit ∧ y < intLimit then some (.ints x y) else Option.none
    | _, _ => Option.none

def add (a b : Value) : Except Fault Value :=
  match a, b with
  | .list l _, .list m _ => .ok (.list (l ++ m) true)
  | .str s _, .str t _ => .ok (text (s ++ t))
  | a, b =>
    match operands? a b with
    | some (.ints x y) => checkedInt (x + y)
    | some (.floats x y) => .ok (.float (x + y))
    | Option.none => .error .invalidOperation

def sub (a b : Value) : Except Fault Value :=
  match operands? a b with
  | some (.ints x y) => checkedInt (x - y)
  | some (.floats x y) => .ok (.float (x - y))
  | Option.none => .error .invalidOperation

/-- How often a text or list is repeated. -/
def repetitions (n : Value) : Except Fault Nat :=
  match n.asInt? with
  | some i => if 0 ≤ i then .ok i.toNat else .error .invalidOperation
  | Option.none => .error .invalidOperation

def mul (a b : Value) : Except Fault Value :=
  match a, b with
  | .str s _, n | n, .str s _ => do
    return text (String.join (List.replicate (← repetitions n) s))
  | .list l _, n | n, .list l _ => do
    return .list (List.replicate (← repetitions n) l).flatten true
  | a, b =>
    match operands? a b with
    | some (.ints x y) => checkedInt (x * y)
    | some (.floats x y) => .ok (.float (x * y))
    | Option.none => .error .invalidOperation

/-- Division is always one of doubles. -/
def div (a b : Value) : Except Fault Value :=
  match a.asFloat?, b.asFloat? with
  | some x, some y => .ok (.float (x / y))
  | _, _ => .error .invalidOperation

def floorDiv (a b : Value) : Except Fault Value :=
  match operands? a b with
  | some (.ints x y) => if y = 0 then .error .invalidOperation else checkedInt (x / y)
  | some (.floats x y) => .ok (.float (Decimal.euclideanQuotient x y))
  | Option.none => .error .invalidOperation

def rem (a b : Value) : Except Fault Value :=
  match operands? a b with
  | some (.ints x y) => if y = 0 then .error .invalidOperation else checkedInt (x % y)
  | some (.floats x y) => .ok (.float (Decimal.remainder x y))
  | Option.none => .error .invalidOperation

/-- A power of integers; none once it is sure not to fit. -/
def powInt? (x : Int) (n : Nat) : Option Int :=
  if x.natAbs ≤ 1 then some (if n % 2 = 0 then x * x else x) |>.map fun r => if n = 0 then 1 else r
  else if n < 128 then some (Int.pow x n)
  else Option.none

def pow (a b : Value) : Except Fault Value :=
  match operands? a b with
  | some (.ints x y) =>
    if 0 ≤ y ∧ y < Decimal.pow2 32 then
      match powInt? x y.toNat with
      | some r => checkedInt r
      | Option.none => .error .invalidOperation
    else .error .invalidOperation
  | some (.floats x y) => .ok (.float (Float.pow x y))
  | Option.none => .error .invalidOperation

def neg : Value → Except Fault Value
  | .int n =>
    if n = intLimit then .ok (.int (-intLimit))
    else if n < intLimit then checkedInt (-n)
    else .error .invalidOperation
  | .float x => .ok (.float (-x))
  | _ => .error .invalidOperation

/-- Joins the texts that two values print. -/
def concat (a b : Value) : Value := text (a.display ++ b.display)

/-- Whether a list of characters starts with another. -/
def isInfix (part whole : List Char) : Bool :=
  match whole with
  | [] => part.isEmpty
  | c :: rest => part.isPrefixOf (c :: rest) || isInfix part rest

/-- Whether a container holds a value: a text a part, a map a key, a list an item. -/
def contains (container item : Value) : Except Fault Bool :=
  match container with
  | .undefined => .ok false
  | .str s _ => .ok (isInfix item.display.toList s.toList)
  | .map e => .ok (findKey item e).isSome
  | .named e => .ok (item.asText?.any fun k => e.any (·.1 == k))
  | .list l _ => .ok (l.any (item.equal ·))
  | .group k l => .ok (k.equal item || (Value.list l true).equal item)
  | .namespaceRef _ | .macroRef _ | .loopRef _ | .function _ => .ok false
  | _ => .error .invalidOperation

/-- One bound of a slice; none for a bound that is left out. -/
def bound? (v : Value) : Except Fault (Option Int) :=
  if v.isNone then .ok Option.none
  else
    match v.asInt? with
    | some i => if -sizeLimit ≤ i ∧ i < sizeLimit then .ok (some i) else .error .invalidOperation
    | Option.none => .error .invalidOperation

/-- Every `step`-th of a list's items, the first one included. -/
def everyNth {α : Type} (step : Nat) (l : List α) : List α :=
  (l.zipIdx.filter fun p => p.2 % step = 0).map (·.1)

/-- The part of a list between two bounds; negative bounds count from the end, and a
negative step walks backwards. -/
def cut {α : Type} (l : List α) (start stop : Option Int) (step : Int) : List α :=
  let n : Int := l.length
  let clamp (low high i : Int) : Int := max low (min high (if i < 0 then i + n else i))
  if 0 < step then
    let first := clamp 0 n (start.getD 0)
    let last := clamp 0 n (stop.getD n)
    everyNth step.toNat ((l.take last.toNat).drop first.toNat)
  else
    let first := match start with
      | some i => clamp (-1) (n - 1) i
      | Option.none => n - 1
    let last := match stop with
      | some i => clamp (-1) (n - 1) i
      | Option.none => -1
    everyNth step.natAbs (((l.take (first + 1).toNat).drop (last + 1).toNat).reverse)

/-- A slice of a text or a list. -/
def slice (v start stop step : Value) : Except Fault Value := do
  let start ← bound? start
  let stop ← bound? stop
  let step := (← bound? step).getD 1
  if step = 0 then throw .invalidOperation
  match v with
  | .undefined | .none => return items []
  | .str s _ => return text (String.ofList (cut s.toList start stop step))
  | .list l _ => return .list (cut l start stop step) true
  | _ => throw .invalidOperation

/-- A part of a group: the common key or the members. -/
def groupField? (key : Value) (members : List Value) : String → Option Value
  | "grouper" => some key
  | "list" => some (.list members true)
  | _ => Option.none

/-- The item under a subscript, if there is one. -/
def subscript? (v key : Value) : Option Value :=
  match v with
  | .str s _ =>
    (place? key s.length).bind fun i => s.toList[i]?.map fun c => text (String.singleton c)
  | .list l _ => (place? key l.length).bind fun i => l[i]?
  | .group k l =>
    match key.asText? with
    | some name => groupField? k l name
    | Option.none => (place? key 2).bind fun i => [k, .list l true][i]?
  | .map e => findKey key e
  | .named e => key.asText?.bind fun k => (e.find? (·.1 == k)).map (·.2)
  | _ => Option.none

end Value

end Scaffold.Stencil
