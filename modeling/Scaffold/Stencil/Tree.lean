import Scaffold.Stencil.Value

/-!
# Trees of stencils

`Expr` is an expression, `Stmt` a piece of a stencil. A comparison may go on (`a < b < c`),
each link comparing with the operand before it.
-/

namespace Scaffold.Stencil

/-- Operators on two values that are both always needed. -/
inductive BinaryOp where
  | add | sub | mul | div | floorDiv | rem | pow | concat
deriving DecidableEq, Repr

/-- Comparisons. -/
inductive Comparison where
  | eq | ne | lt | le | gt | ge | isIn | isNotIn
deriving DecidableEq, Repr

mutual

/-- An expression. -/
inductive Expr where
  | const (value : Value)
  | var (name : String)
  | list (items : List Expr)
  | map (entries : List Entry)
  | not (operand : Expr)
  | neg (operand : Expr)
  | binary (op : BinaryOp) (left right : Expr)
  | and (left right : Expr)
  | or (left right : Expr)
  | compare (first : Expr) (links : List Link)
  | choose (test yes no : Expr)
  | attr (owner : Expr) (name : String)
  | item (owner key : Expr)
  | slice (owner start stop step : Expr)
  | filter (name : String) (input : Expr) (args : List Arg)
  | test (name : String) (input : Expr) (args : List Arg)
  | callName (name : String) (args : List Arg)
  | callMethod (owner : Expr) (name : String) (args : List Arg)
  | callBlock (name : String)
  | callValue (callee : Expr) (args : List Arg)

/-- An argument of a call. -/
inductive Arg where
  | plain (value : Expr)
  | spread (items : Expr)
  | named (name : String) (value : Expr)
  | spreadNamed (entries : Expr)

/-- A further step of a comparison. -/
inductive Link where
  | mk (op : Comparison) (operand : Expr)

/-- An entry of a map. -/
inductive Entry where
  | mk (key value : Expr)

end

instance : Inhabited Expr := ⟨.const .undefined⟩

/-- A filter without its input. -/
structure FilterCall where
  name : String
  args : List Arg

/-- What a value can be stored under. -/
inductive Target where
  | name (name : String)
  | attr (owner : Expr) (name : String)
  | tuple (parts : List Target)

instance : Inhabited Target := ⟨.tuple []⟩

/-- The parameters of a macro; the defaults belong to the last of them. -/
structure Signature where
  params : List Target := []
  defaults : List Expr := []

/-- A piece of a stencil. -/
inductive Stmt where
  | text (raw : String)
  | print (value : Expr)
  | forEach (target : Target) (source : Expr) (filter : Option Expr) (isRecursive : Bool)
      (body orElse : List Stmt)
  | choose (test : Expr) (yes no : List Stmt)
  | bindIn (bindings : List (Target × Expr)) (body : List Stmt)
  | assign (target : Target) (value : Expr)
  | capture (target : Target) (filters : List FilterCall) (body : List Stmt)
  | escaping (mode : Expr) (body : List Stmt)
  | filtered (filters : List FilterCall) (body : List Stmt)
  | block (name : String)
  | declare (name : String) (signature : Signature) (body : List Stmt)
  | callWith (callee : Expr) (signature : Signature) (body : List Stmt)
  | call (callee : Expr)
  | extend (name : Expr)
  | embed (name : Expr) (mayBeMissing : Bool)
  | load (name : Expr)
deriving Inhabited

/-- A stencil: its pieces, and the bodies of its blocks by name. -/
structure Tree where
  body : List Stmt
  blocks : List (String × List Stmt)

end Scaffold.Stencil
