import Scaffold.Stencil.Tree

/-!
# Names in trees

The names that expressions and pieces of a stencil look up. A macro takes along what these
names stand for where it is declared.
-/

namespace Scaffold.Stencil

mutual

/-- The names that an expression looks up. -/
def Expr.names : Expr → List String
  | .const _ => []
  | .var name => [name]
  | .list items => namesOfExprs items
  | .map entries => namesOfEntries entries
  | .not e | .neg e => e.names
  | .binary _ a b | .and a b | .or a b => a.names ++ b.names
  | .compare first links => first.names ++ namesOfLinks links
  | .choose test yes no => test.names ++ yes.names ++ no.names
  | .attr owner _ => owner.names
  | .item owner key => owner.names ++ key.names
  | .slice owner start stop step => owner.names ++ start.names ++ stop.names ++ step.names
  | .filter _ input args | .test _ input args => input.names ++ namesOfArgs args
  | .callName name args => name :: namesOfArgs args
  | .callMethod owner _ args | .callValue owner args => owner.names ++ namesOfArgs args
  | .callBlock _ => []

def namesOfExprs : List Expr → List String
  | [] => []
  | e :: rest => e.names ++ namesOfExprs rest

def namesOfEntries : List Entry → List String
  | [] => []
  | .mk key value :: rest => key.names ++ value.names ++ namesOfEntries rest

def namesOfLinks : List Link → List String
  | [] => []
  | .mk _ operand :: rest => operand.names ++ namesOfLinks rest

def namesOfArgs : List Arg → List String
  | [] => []
  | .plain e :: rest | .spread e :: rest | .named _ e :: rest | .spreadNamed e :: rest =>
    e.names ++ namesOfArgs rest

end

/-- The names in the arguments of filters. -/
def namesOfFilters (filters : List FilterCall) : List String :=
  filters.flatMap fun f => namesOfArgs f.args

/-- The names in the defaults of parameters. -/
def Signature.names (s : Signature) : List String := namesOfExprs s.defaults

mutual

/-- The names that a piece of a stencil looks up. -/
def Stmt.names : Stmt → List String
  | .text _ | .block _ => []
  | .print e | .call e | .extend e | .embed e _ | .load e => e.names
  | .forEach _ source filter _ body orElse =>
    source.names ++ (filter.map Expr.names).getD [] ++ namesOfStmts body ++ namesOfStmts orElse
  | .choose test yes no => test.names ++ namesOfStmts yes ++ namesOfStmts no
  | .bindIn bindings body => bindings.flatMap (fun b => b.2.names) ++ namesOfStmts body
  | .assign (.attr owner _) value => owner.names ++ value.names
  | .assign _ value => value.names
  | .capture _ filters body => namesOfFilters filters ++ namesOfStmts body
  | .escaping mode body => mode.names ++ namesOfStmts body
  | .filtered filters body => namesOfFilters filters ++ namesOfStmts body
  | .declare _ signature body => signature.names ++ namesOfStmts body
  | .callWith callee signature body => callee.names ++ signature.names ++ namesOfStmts body

def namesOfStmts : List Stmt → List String
  | [] => []
  | s :: rest => s.names ++ namesOfStmts rest

end

end Scaffold.Stencil
