import Scaffold.Gate.Context
import Scaffold.Gate.Operators
import Scaffold.Stencil.Run
import Scaffold.Stencil.Tree.Reader

/-!
# Gates

A gate is an expression that says whether a question is asked or a rule applies. It passes
when its value is the flag `true`; any other value, however true it counts, is refused. A few
words pass or are refused as they stand.
-/

namespace Scaffold.Gate

/-- Why a gate cannot be decided; the expression is told with its operators spelled out. -/
inductive Fault where
  /-- The text is no expression. -/
  | unreadable (expression : String) (cause : Stencil.Fault)
  /-- The expression has no value. -/
  | undecided (expression : String) (cause : Stencil.Fault)
deriving DecidableEq, Repr

/-- The sentence for a gate that cannot be decided. -/
def Fault.message : Fault → String
  | unreadable e cause => s!"Failed compiling `when`:\n {e}\n{cause.message}"
  | undecided e cause => s!"Failed executing `when`:\n {e}\n{cause.message}"

/-- The words of a gate that is always open; no word at all is one of them. -/
def isOpen (expression : String) : Bool := ["", "true", "always"].contains expression

/-- The words of a gate that is always shut. -/
def isShut (expression : String) : Bool := ["false", "never"].contains expression

/-- Reads an expression with its operators spelled out. -/
def read (expression : String) : Except Fault Stencil.Expr :=
  (Stencil.Expr.ofText expression.toList).mapError (.unreadable expression)

/-- Whether a value is the flag `true`. -/
def isTrueFlag : Stencil.Value → Bool
  | .bool b => b
  | _ => false

/-- Whether an expression with its operators spelled out has the flag `true` for its value. -/
def holds (context : Context) (expression : String) : Except Fault Bool := do
  let e ← read expression
  match e.value true context.root with
  | .ok v => return isTrueFlag v
  | .error cause => .error (.undecided expression cause)

/-- Decides a gate. -/
def evaluate (context : Context) (expression : String) : Except Fault Bool :=
  if isOpen expression then .ok true
  else if isShut expression then .ok false
  else holds context (spellOut expression)

/-- Decides a gate that sees no values of a rule; an open one needs no context. -/
def passes (answers : AnswerMap) (template : TemplateInfo) (env : Entries String)
    (expression : String) : Except Fault Bool :=
  if isOpen expression then .ok true
  else evaluate { answers, template, env } expression

end Scaffold.Gate
