import Scaffold.Stencil.Token.Lexer
import Scaffold.Stencil.Tree.Cursor

/-!
# Reading expressions

From loose to tight: `if` … `else`, `or`, `and`, `not`, comparisons, sums, `~`, products,
powers, signs, then subscripts and calls, and filters and tests. All operators group to the
left. The readers count `fuel` down for every step inwards or to the right, and `depth` up
for every expression inside of an expression, which may not exceed `Reader.maxDepth`.
-/

namespace Scaffold.Stencil

namespace Reader

/-- The binary operators of a level, loosest first. -/
def binaryOp? (level : Nat) : Sign → Option BinaryOp
  | .plus => if level = 0 then some .add else none
  | .minus => if level = 0 then some .sub else none
  | .tilde => if level = 1 then some .concat else none
  | .times => if level = 2 then some .mul else none
  | .slash => if level = 2 then some .div else none
  | .slashSlash => if level = 2 then some .floorDiv else none
  | .percent => if level = 2 then some .rem else none
  | .power => if level = 3 then some .pow else none
  | _ => none

/-- The comparisons that are signs. -/
def comparison? : Sign → Option Comparison
  | .equals => some .eq
  | .notEquals => some .ne
  | .less => some .lt
  | .lessEq => some .le
  | .greater => some .gt
  | .greaterEq => some .ge
  | _ => none

/-- Takes the comparison that is next, if there is one. -/
def takeComparison : Reader (Option Comparison) := do
  match ← peek with
  | some (.sign s) =>
    match comparison? s with
    | some op =>
      let _ ← next
      return some op
    | none => return none
  | some (.word "in") =>
    let _ ← next
    return some .isIn
  | some (.word "not") =>
    let _ ← next
    expectWord "in"
    return some .isNotIn
  | _ => return none

/-- Takes the binary operator of a level that is next, if there is one. -/
def takeBinary (level : Nat) : Reader (Option BinaryOp) := do
  match ← peek with
  | some (.sign s) =>
    match binaryOp? level s with
    | some op =>
      let _ ← next
      return some op
    | none => return none
  | _ => return none

/-- Whether the argument of a test may start here without parentheses. -/
def atBareArgument : Reader Bool := do
  match ← peek with
  | some (.word w) => return !(["and", "or", "else", "is"].contains w)
  | some (.str _) | some (.int _) | some (.float _) => return true
  | some (.sign s) => return [Sign.plus, .minus, .bracketOpen, .braceOpen].contains s
  | _ => return false

/-- The texts that follow each other are one text; `fuel` bounds their number. -/
def moreText : Nat → String → Reader String
  | 0, s => return s
  | fuel + 1, s => do
    match ← peek with
    | some (.str t) =>
      let _ ← next
      moreText fuel (s ++ t)
    | _ => return s

mutual

/-- Reads an expression. -/
def expr : Nat → Nat → Reader Expr
  | 0, _ => refuse
  | fuel + 1, depth => do
    if maxDepth ≤ depth then refuse
    let e ← orExpr fuel (depth + 1)
    chooseTail fuel (depth + 1) e

/-- Reads what may follow the value of a conditional expression. -/
def chooseTail : Nat → Nat → Expr → Reader Expr
  | 0, _, _ => refuse
  | fuel + 1, depth, yes => do
    if ← skipWord "if" then
      let test ← orExpr fuel depth
      let no ←
        if ← skipWord "else" then do
          let e ← orExpr fuel depth
          chooseTail fuel depth e
        else pure (.const .undefined)
      chooseTail fuel depth (.choose test yes no)
    else return yes

/-- Reads an expression without a condition. -/
def orExpr : Nat → Nat → Reader Expr
  | 0, _ => refuse
  | fuel + 1, depth => do
    let e ← andExpr fuel depth
    orTail fuel depth e

def orTail : Nat → Nat → Expr → Reader Expr
  | 0, _, _ => refuse
  | fuel + 1, depth, left => do
    if ← skipWord "or" then
      let right ← andExpr fuel depth
      orTail fuel depth (.or left right)
    else return left

def andExpr : Nat → Nat → Reader Expr
  | 0, _ => refuse
  | fuel + 1, depth => do
    let e ← notExpr fuel depth
    andTail fuel depth e

def andTail : Nat → Nat → Expr → Reader Expr
  | 0, _, _ => refuse
  | fuel + 1, depth, left => do
    if ← skipWord "and" then
      let right ← notExpr fuel depth
      andTail fuel depth (.and left right)
    else return left

def notExpr : Nat → Nat → Reader Expr
  | 0, _ => refuse
  | fuel + 1, depth => do
    if ← skipWord "not" then
      return .not (← notExpr fuel depth)
    else
      let first ← binary fuel depth 0
      let links ← linkTail fuel depth
      return if links.isEmpty then first else .compare first links

/-- Reads the further operands of a comparison. -/
def linkTail : Nat → Nat → Reader (List Link)
  | 0, _ => refuse
  | fuel + 1, depth => do
    match ← takeComparison with
    | some op =>
      let operand ← binary fuel depth 0
      return .mk op operand :: (← linkTail fuel depth)
    | none => return []

/-- Reads the operators of a level and all tighter ones. -/
def binary : Nat → Nat → Nat → Reader Expr
  | 0, _, _ => refuse
  | fuel + 1, depth, level => do
    if 4 ≤ level then
      let e ← signed fuel depth
      let e ← postfixTail fuel depth e
      filterTail fuel depth e
    else
      let e ← binary fuel depth (level + 1)
      binaryTail fuel depth level e

def binaryTail : Nat → Nat → Nat → Expr → Reader Expr
  | 0, _, _, _ => refuse
  | fuel + 1, depth, level, left => do
    match ← takeBinary level with
    | some op =>
      let right ← binary fuel depth (level + 1)
      binaryTail fuel depth level (.binary op left right)
    | none => return left

/-- Reads minus signs and what they stand before. -/
def signed : Nat → Nat → Reader Expr
  | 0, _ => refuse
  | fuel + 1, depth => do
    if ← skipSign .minus then
      return .neg (← signed fuel depth)
    else primary fuel depth

/-- Reads subscripts, attributes and calls. -/
def postfixTail : Nat → Nat → Expr → Reader Expr
  | 0, _, _ => refuse
  | fuel + 1, depth, e => do
    if ← skipSign .dot then
      let name ← expectName
      postfixTail fuel depth (.attr e name)
    else if ← skipSign .bracketOpen then
      let e ← subscript fuel depth e
      postfixTail fuel depth e
    else if ← atSign .parenOpen then
      let args ← arguments fuel depth
      let e : Expr := match e with
        | .var name => .callName name args
        | .attr (.var "self") name => .callBlock name
        | .attr owner name => .callMethod owner name args
        | e => .callValue e args
      postfixTail fuel depth e
    else return e

/-- Reads a subscript or a slice after its opening bracket. -/
def subscript : Nat → Nat → Expr → Reader Expr
  | 0, _, _ => refuse
  | fuel + 1, depth, e => do
    let start ←
      if ← atSign .colon then pure none else (do return some (← expr fuel depth))
    if ← skipSign .colon then
      let stop ←
        if ← (do return (← atSign .bracketClose) || (← atSign .colon)) then
          pure (Expr.const .none)
        else expr fuel depth
      let step ←
        if ← skipSign .colon then
          if ← atSign .bracketClose then pure (Expr.const .none) else expr fuel depth
        else pure (Expr.const .none)
      expectSign .bracketClose
      return .slice e (start.getD (.const .none)) stop step
    else
      expectSign .bracketClose
      match start with
      | some key => return .item e key
      | none => refuse

/-- Reads filters and tests. -/
def filterTail : Nat → Nat → Expr → Reader Expr
  | 0, _, _ => refuse
  | fuel + 1, depth, e => do
    if ← skipSign .pipe then
      let name ← expectName
      let args ← if ← atSign .parenOpen then arguments fuel depth else pure []
      filterTail fuel depth (.filter name e args)
    else if ← skipWord "is" then
      let negated ← skipWord "not"
      let name ← expectName
      let args ←
        if ← atSign .parenOpen then arguments fuel depth
        else if ← atBareArgument then do
          let a ← signed fuel depth
          let a ← postfixTail fuel depth a
          pure [Arg.plain a]
        else pure []
      let tested := Expr.test name e args
      filterTail fuel depth (if negated then .not tested else tested)
    else return e

/-- Reads a literal, a name or something between brackets. -/
def primary : Nat → Nat → Reader Expr
  | 0, _ => refuse
  | fuel + 1, depth => do
    if maxDepth ≤ depth then refuse
    match ← next with
    | some (.word w) =>
      if w = "true" ∨ w = "True" then return .const (.bool true)
      else if w = "false" ∨ w = "False" then return .const (.bool false)
      else if w = "none" ∨ w = "None" then return .const .none
      else return .var w
    | some (.str s) => return .const (.text (← moreText fuel s))
    | some (.int n) => return .const (.int n)
    | some (.float x) => return .const (.float x)
    | some (.sign .parenOpen) =>
      if ← skipSign .parenClose then return .list []
      else
        let e ← expr fuel (depth + 1)
        if ← atSign .comma then
          return .list (e :: (← itemsTail fuel (depth + 1) .parenClose))
        else
          expectSign .parenClose
          return e
    | some (.sign .bracketOpen) =>
      if ← skipSign .bracketClose then return .list []
      else
        let e ← expr fuel (depth + 1)
        return .list (e :: (← itemsTail fuel (depth + 1) .bracketClose))
    | some (.sign .braceOpen) =>
      if ← skipSign .braceClose then return .map []
      else return .map (← entries fuel (depth + 1))
    | _ => refuse

/-- Reads the items after the first one, up to the closing bracket. -/
def itemsTail : Nat → Nat → Sign → Reader (List Expr)
  | 0, _, _ => refuse
  | fuel + 1, depth, close => do
    if ← skipSign close then return []
    else
      expectSign .comma
      if ← skipSign close then return []
      else
        let e ← expr fuel depth
        return e :: (← itemsTail fuel depth close)

/-- Reads the entries of a map that is not closed yet. -/
def entries : Nat → Nat → Reader (List Entry)
  | 0, _ => refuse
  | fuel + 1, depth => do
    let key ← expr fuel depth
    expectSign .colon
    let value ← expr fuel depth
    if ← skipSign .braceClose then return [.mk key value]
    else
      expectSign .comma
      if ← skipSign .braceClose then return [.mk key value]
      else return .mk key value :: (← entries fuel depth)

/-- Reads the arguments of a call between their parentheses. -/
def arguments : Nat → Nat → Reader (List Arg)
  | 0, _ => refuse
  | fuel + 1, depth => do
    expectSign .parenOpen
    if ← skipSign .parenClose then return []
    else argumentsTail fuel depth false

/-- Reads arguments; after a named one all have to be named. -/
def argumentsTail : Nat → Nat → Bool → Reader (List Arg)
  | 0, _, _ => refuse
  | fuel + 1, depth, hasNamed => do
    let (arg, hasNamed) ←
      if ← skipSign .power then do
        let e ← expr fuel depth
        pure (Arg.spreadNamed e, true)
      else if ← skipSign .times then do
        let e ← expr fuel depth
        pure (Arg.spread e, hasNamed)
      else do
        let e ← expr fuel depth
        match e, ← atSign .assign with
        | .var name, true =>
          let _ ← next
          let value ← orExpr fuel depth
          pure (Arg.named name value, true)
        | e, _ => if hasNamed then refuse else pure (Arg.plain e, false)
    if ← skipSign .parenClose then return [arg]
    else
      expectSign .comma
      if ← skipSign .parenClose then return [arg]
      else return arg :: (← argumentsTail fuel depth hasNamed)

end

/-- Fuel that no text with so many tokens uses up. -/
def fuelFor (tokens : List Token) : Nat := 16 * (tokens.length + 4)

end Reader

/-- Reads a text that is one expression. -/
def Expr.ofText (text : List Char) : Except Fault Expr := do
  let tokens := Token.ofExpression text
  let read : Reader Expr := do
    let e ← Reader.expr (Reader.fuelFor tokens) 0
    match ← Reader.next with
    | none => return e
    | some _ => Reader.refuse
  (·.1) <$> read.run ⟨tokens, []⟩

end Scaffold.Stencil
