import Scaffold.Stencil.Tree.Expression

/-!
# Reading stencils

`Tree.ofText` reads a whole stencil. A tag with a body ends at its closing tag; the end of
the text closes nothing.
-/

namespace Scaffold.Stencil

namespace Reader

/-- Names that nothing can be stored under. -/
def reservedNames : List String :=
  ["true", "True", "false", "False", "none", "None", "loop", "self"]

/-- Takes a name that a value can be stored under. -/
def freshName : Reader String := do
  let name ← expectName
  if reservedNames.contains name then refuse else return name

/-- Takes the attributes that follow a name. -/
def attrTail : Nat → Target → Expr → Reader Target
  | 0, _, _ => refuse
  | fuel + 1, target, e => do
    if ← skipSign .dot then
      let name ← expectName
      attrTail fuel (.attr e name) (.attr e name)
    else return target

/-- Takes a name, with attributes where they are allowed. -/
def namedTarget (fuel : Nat) (dotted : Bool) : Reader Target := do
  let name ← freshName
  if dotted then attrTail fuel (.name name) (.var name) else return .name name

mutual

/-- Reads one or several targets. -/
def targets : Nat → Bool → Reader Target
  | 0, _ => refuse
  | fuel + 1, dotted => do
    let t ← target fuel dotted
    if ← atSign .comma then
      return .tuple (t :: (← targetTail fuel dotted))
    else return t

/-- Reads one target. -/
def target : Nat → Bool → Reader Target
  | 0, _ => refuse
  | fuel + 1, dotted => do
    if ← skipSign .parenOpen then
      let t ← targets fuel false
      expectSign .parenClose
      return t
    else namedTarget fuel dotted

/-- Reads the targets after the first one; a comma may stand at the end. -/
def targetTail : Nat → Bool → Reader (List Target)
  | 0, _ => refuse
  | fuel + 1, dotted => do
    if ← skipSign .comma then
      if ← (do return (← atSign .parenClose) || (← atTagEnd) || (← atWord "in")
          || (← atSign .assign)) then
        return []
      else
        let t ← target fuel dotted
        return t :: (← targetTail fuel dotted)
    else return []

end

/-- Reads values with commas between them as a list. -/
def tupleTail : Nat → Nat → Reader (List Expr)
  | 0, _ => refuse
  | fuel + 1, depth => do
    if ← skipSign .comma then
      if ← atTagEnd then return []
      else
        let e ← expr fuel depth
        return e :: (← tupleTail fuel depth)
    else return []

/-- Reads one value, or several as a list. -/
def tupleExpr (fuel depth : Nat) : Reader Expr := do
  let e ← expr fuel depth
  if ← atSign .comma then return .list (e :: (← tupleTail fuel depth)) else return e

/-- Reads filters up to the end of a tag; there is at least one. -/
def filterCalls : Nat → Nat → Reader (List FilterCall)
  | 0, _ => refuse
  | fuel + 1, depth => do
    let name ← expectName
    let args ← if ← atSign .parenOpen then arguments fuel depth else pure []
    if ← atTagEnd then return [⟨name, args⟩]
    else
      expectSign .pipe
      return ⟨name, args⟩ :: (← filterCalls fuel depth)

/-- Reads the bindings of a `with` tag up to its end. -/
def bindings : Nat → Nat → Bool → Reader (List (Target × Expr))
  | 0, _, _ => refuse
  | fuel + 1, depth, isFirst => do
    if ← atTagEnd then return []
    else
      if !isFirst then expectSign .comma
      let t ← target fuel false
      expectSign .assign
      let e ← expr fuel depth
      return (t, e) :: (← bindings fuel depth false)

/-- Reads parameters up to the closing parenthesis. -/
def signature : Nat → Nat → Signature → Reader Signature
  | 0, _, _ => refuse
  | fuel + 1, depth, s => do
    if ← skipSign .parenClose then return s
    else
      if !s.params.isEmpty then expectSign .comma
      if ← skipSign .parenClose then return s
      else
        let t ← namedTarget fuel false
        let s := { s with params := s.params ++ [t] }
        if ← skipSign .assign then
          let e ← expr fuel depth
          signature fuel depth { s with defaults := s.defaults ++ [e] }
        else if s.defaults.isEmpty then signature fuel depth s
        else refuse

/-- Whether an expression is a call. -/
def isCall : Expr → Bool
  | .callName .. | .callMethod .. | .callBlock .. | .callValue .. => true
  | _ => false

/-- Reads the names of an import. -/
def importNames : Nat → Bool → Reader Unit
  | 0, _ => refuse
  | fuel + 1, isFirst => do
    if ← atTagEnd then return ()
    else
      if !isFirst then expectSign .comma
      if ← atTagEnd then return ()
      else
        let _ ← freshName
        if ← skipWord "as" then
          let _ ← freshName
        importNames fuel false

mutual

/-- Reads pieces up to a tag whose name is in `ends`, which stays, or to the end. -/
def pieces : Nat → Nat → Bool → List String → Reader (List Stmt)
  | 0, _, _, _ => refuse
  | fuel + 1, depth, inMacro, ends => do
    match ← next with
    | none => return []
    | some (.text raw) => return .text raw :: (← pieces fuel depth inMacro ends)
    | some .valueStart =>
      let e ← expr fuel depth
      match ← next with
      | some .valueEnd => return .print e :: (← pieces fuel depth inMacro ends)
      | _ => refuse
    | some .tagStart =>
      match ← peek with
      | some (.word w) =>
        if ends.contains w then return []
        else
          let s ← tag fuel depth inMacro
          expectTagEnd
          return s :: (← pieces fuel depth inMacro ends)
      | _ => refuse
    | some _ => refuse

/-- Reads a body from the end of its tag to the name of the closing one, which is taken. -/
def bodyUntil : Nat → Nat → Bool → String → Reader (List Stmt)
  | 0, _, _, _ => refuse
  | fuel + 1, depth, inMacro, close => do
    expectTagEnd
    let body ← pieces fuel depth inMacro [close]
    let _ ← next
    return body

/-- Reads the rest of a condition after its test. -/
def branches : Nat → Nat → Bool → Reader Stmt
  | 0, _, _ => refuse
  | fuel + 1, depth, inMacro => do
    let test ← orExpr fuel depth
    expectTagEnd
    let yes ← pieces fuel depth inMacro ["endif", "else", "elif"]
    match ← next with
    | some (.word "else") => return .choose test yes (← bodyUntil fuel depth inMacro "endif")
    | some (.word "elif") => return .choose test yes [← branches fuel depth inMacro]
    | _ => return .choose test yes []

/-- Reads a tag from its name on, with its body if it has one. -/
def tag : Nat → Nat → Bool → Reader Stmt
  | 0, _, _ => refuse
  | fuel + 1, depth, inMacro => do
    if maxDepth ≤ depth then refuse
    let depth := depth + 1
    match ← next with
    | some (.word "for") =>
      let t ← targets fuel false
      expectWord "in"
      let source ← orExpr fuel depth
      let filter ← if ← skipWord "if" then (do return some (← expr fuel depth)) else pure none
      let isRecursive ← skipWord "recursive"
      expectTagEnd
      let body ← pieces fuel depth inMacro ["endfor", "else"]
      let orElse ←
        if ← skipWord "else" then do
          expectTagEnd
          pieces fuel depth inMacro ["endfor"]
        else pure []
      let _ ← next
      return .forEach t source filter isRecursive body orElse
    | some (.word "if") => branches fuel depth inMacro
    | some (.word "with") =>
      let bs ← bindings fuel depth true
      return .bindIn bs (← bodyUntil fuel depth inMacro "endwith")
    | some (.word "set") =>
      let t ← targets fuel true
      if ← atTagEnd then return .capture t [] (← bodyUntil fuel depth inMacro "endset")
      else if ← skipSign .pipe then
        let filters ← filterCalls fuel depth
        return .capture t filters (← bodyUntil fuel depth inMacro "endset")
      else
        expectSign .assign
        return .assign t (← tupleExpr fuel depth)
    | some (.word "autoescape") =>
      let mode ← expr fuel depth
      return .escaping mode (← bodyUntil fuel depth inMacro "endautoescape")
    | some (.word "filter") =>
      let filters ← filterCalls fuel depth
      return .filtered filters (← bodyUntil fuel depth inMacro "endfilter")
    | some (.word "block") =>
      if inMacro then refuse
      let name ← expectName
      if (← get).blocks.any (·.1 = name) then refuse
      modify fun c => { c with blocks := c.blocks ++ [(name, [])] }
      let body ← bodyUntil fuel depth inMacro "endblock"
      modify fun c => { c with
        blocks := c.blocks.map fun b => if b.1 = name then (name, body) else b }
      match ← peek with
      | some (.word w) => if w = name then let _ ← next else refuse
      | _ => pure ()
      return .block name
    | some (.word "extends") => return .extend (← expr fuel depth)
    | some (.word "include") =>
      let e ← expr fuel depth
      if ← skipWord "ignore" then
        expectWord "missing"
        return .embed e true
      else return .embed e false
    | some (.word "import") =>
      let e ← expr fuel depth
      expectWord "as"
      let _ ← freshName
      return .load e
    | some (.word "from") =>
      let e ← expr fuel depth
      expectWord "import"
      importNames fuel true
      return .load e
    | some (.word "macro") =>
      let name ← freshName
      expectSign .parenOpen
      let s ← signature fuel depth {}
      return .declare name s (← bodyUntil fuel depth true "endmacro")
    | some (.word "call") =>
      let s ← if ← skipSign .parenOpen then signature fuel depth {} else pure {}
      let e ← expr fuel depth
      if isCall e then return .callWith e s (← bodyUntil fuel depth true "endcall")
      else refuse
    | some (.word "do") =>
      let e ← expr fuel depth
      if isCall e then return .call e else refuse
    | _ => refuse

end

end Reader

/-- Reads a stencil. -/
def Tree.ofText (text : List Char) : Except Fault Tree := do
  let tokens := Token.ofStencil text
  let (body, cursor) ← (Reader.pieces (Reader.fuelFor tokens) 0 false []).run ⟨tokens, []⟩
  return ⟨body, cursor.blocks⟩

end Scaffold.Stencil
