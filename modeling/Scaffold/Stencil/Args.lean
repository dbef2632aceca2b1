import Scaffold.Stencil.Arithmetic

/-!
# Arguments of filters, tests and functions

Positional arguments are taken in order, named ones by name. A callee that takes no named
arguments gets them as one further positional argument.
-/

namespace Scaffold.Stencil

/-- The arguments of a call. -/
structure Args where
  plain : List Value := []
  named : List (String × Value) := []

namespace Args

/-- The arguments as a callee without named ones sees them. -/
def all (args : Args) : List Value :=
  if args.named.isEmpty then args.plain else args.plain ++ [.named args.named]

/-- No more arguments than a callee has parameters. -/
def atMost (count : Nat) (args : Args) : Except Fault (List Value) :=
  if args.all.length ≤ count then .ok args.all else .error .tooManyArguments

/-- The argument of a parameter that has to be there. -/
def required (args : List Value) (i : Nat) : Except Fault Value :=
  match args[i]? with
  | some v => .ok v
  | none => .error .missingArgument

/-- The argument of a parameter that may be left out, as nothing and none do. -/
def optional (args : List Value) (i : Nat) : Option Value :=
  match args[i]? with
  | some v => if v.isUndefined || v.isNone then none else some v
  | none => none

/-- Any value as a text. -/
def asText : Value → Except Fault String
  | .named _ => .error .invalidOperation
  | v => .ok v.display

/-- A value that has to be a text. -/
def asStrictText (v : Value) : Except Fault String :=
  match v.asText? with
  | some s => .ok s
  | none => .error .invalidOperation

/-- A value that has to be a flag. -/
def asFlag : Value → Except Fault Bool
  | .bool b => .ok b
  | _ => .error .invalidOperation

/-- A value that has to be a whole number between bounds. -/
def asWhole (low high : Int) (v : Value) : Except Fault Int :=
  match v.asInt? with
  | some i => if low ≤ i ∧ i < high then .ok i else .error .invalidOperation
  | none => .error .invalidOperation

/-- A value that has to be a count. -/
def asCount (v : Value) : Except Fault Nat := Int.toNat <$> asWhole 0 (Decimal.pow2 64) v

/-- A value that has to have items. -/
def asItems (v : Value) : Except Fault (List Value) :=
  match v.iterate? with
  | some l => .ok l
  | none => .error .invalidOperation

/-- Reads an argument that may be left out. -/
def option {α : Type} (read : Value → Except Fault α) : Option Value → Except Fault (Option α)
  | some v => some <$> read v
  | none => .ok none

/-- The named argument with a name; nothing and none count as left out. -/
def keyword? (args : Args) (name : String) : Option Value :=
  match args.named.find? (·.1 == name) with
  | some (_, v) => if v.isUndefined || v.isNone then none else some v
  | none => none

/-- Only the given names may be used. -/
def onlyNames (args : Args) (names : List String) : Except Fault Unit :=
  if args.named.all fun p => names.contains p.1 then .ok () else .error .tooManyArguments

/-- A flag among the named arguments. -/
def flag (args : Args) (name : String) : Except Fault Bool := do
  return (← option asFlag (args.keyword? name)).getD false

end Args

/-- The item under a name or subscript; there is none in nothing. -/
def Value.lookup (v key : Value) : Except Fault Value :=
  match v with
  | .undefined => .error .undefinedValue
  | v => .ok ((v.subscript? key).getD .undefined)

/-- The item at the end of a path of names and indices with points between them. -/
def Value.lookupPath (v : Value) (path : String) : Except Fault Value :=
  (path.splitOn ".").foldlM (fun v part =>
    v.lookup (match part.toNat? with
      | some n => .int n
      | Option.none => .text part)) v

end Scaffold.Stencil
