import Scaffold.Stencil.Fault

/-!
# Tokens of stencils

A stencil is text with marked regions: values between `{{` and `}}`, tags between `{%` and
`%}`. A token is a piece of text, a mark, or a word of the language inside a region. A text
that cannot be split further ends in a token for the fault, so that a fault counts only for
a reader that gets there.
-/

namespace Scaffold.Stencil

/-- Signs of the language inside a region. -/
inductive Sign where
  | plus | minus | times | slash | slashSlash | percent | power | tilde
  | equals | notEquals | less | lessEq | greater | greaterEq
  | dot | comma | colon | pipe | assign
  | parenOpen | parenClose | bracketOpen | bracketClose | braceOpen | braceClose
deriving DecidableEq, Repr

/-- The token of a stencil. -/
inductive Token where
  | text (raw : String)
  | valueStart
  | valueEnd
  | tagStart
  | tagEnd
  | word (name : String)
  | str (value : String)
  | int (value : Nat)
  | float (value : Float)
  | sign (sign : Sign)
  | fault (fault : Fault)
deriving Repr

end Scaffold.Stencil
