/-!
# Faults of stencils

Why reading or running a stencil stops. Only the kind of a fault is told.
-/

namespace Scaffold.Stencil

/-- The kinds of faults. -/
inductive Fault where
  | malformed
  | badEscape
  | invalidOperation
  | undefinedValue
  | unknownFilter
  | unknownTest
  | unknownFunction
  | unknownMethod
  | unknownBlock
  | tooManyArguments
  | missingArgument
  | cannotUnpack
  | stencilNotFound
deriving DecidableEq, Repr, Inhabited

/-- The words for a kind of fault. -/
def Fault.message : Fault → String
  | malformed => "syntax error"
  | badEscape => "bad string escape"
  | invalidOperation => "invalid operation"
  | undefinedValue => "undefined value"
  | unknownFilter => "unknown filter"
  | unknownTest => "unknown test"
  | unknownFunction => "unknown function"
  | unknownMethod => "unknown method"
  | unknownBlock => "unknown block"
  | tooManyArguments => "too many arguments"
  | missingArgument => "missing argument"
  | cannotUnpack => "cannot unpack"
  | stencilNotFound => "template not found"

end Scaffold.Stencil
