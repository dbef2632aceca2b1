import Scaffold.Stencil.Token
import Scaffold.Stencil.Tree

/-!
# Walking over tokens

A `Reader` takes tokens off the front of a list or stops with a fault. A token that stands
for a fault stops every reader that looks at it.
-/

namespace Scaffold.Stencil

/-- The tokens still to be read and the blocks met so far. -/
structure Cursor where
  tokens : List Token
  blocks : List (String × List Stmt) := []

/-- A step of reading. -/
abbrev Reader := StateT Cursor (Except Fault)

namespace Reader

/-- How deep expressions and tags may be nested. -/
def maxDepth : Nat := 150

/-- The text does not follow the grammar. -/
def refuse {α : Type} : Reader α := throw .malformed

/-- The next token, which stays. -/
def peek : Reader (Option Token) := do
  match (← get).tokens with
  | [] => return none
  | .fault f :: _ => throw f
  | t :: _ => return some t

/-- Takes the next token. -/
def next : Reader (Option Token) := do
  let t ← peek
  modify fun c => { c with tokens := c.tokens.drop 1 }
  return t

/-- Whether the next token is a given sign. -/
def atSign (s : Sign) : Reader Bool := do
  match ← peek with
  | some (.sign t) => return s = t
  | _ => return false

/-- Whether the next token is a given word. -/
def atWord (w : String) : Reader Bool := do
  match ← peek with
  | some (.word v) => return v = w
  | _ => return false

/-- Whether a tag ends here. -/
def atTagEnd : Reader Bool := do
  match ← peek with
  | some .tagEnd => return true
  | _ => return false

/-- Takes a given sign if it is next. -/
def skipSign (s : Sign) : Reader Bool := do
  if ← atSign s then
    let _ ← next
    return true
  return false

/-- Takes a given word if it is next. -/
def skipWord (w : String) : Reader Bool := do
  if ← atWord w then
    let _ ← next
    return true
  return false

/-- Takes a given sign. -/
def expectSign (s : Sign) : Reader Unit := do
  match ← next with
  | some (.sign t) => if s = t then return () else refuse
  | _ => refuse

/-- Takes a given word. -/
def expectWord (w : String) : Reader Unit := do
  match ← next with
  | some (.word v) => if v = w then return () else refuse
  | _ => refuse

/-- Takes any word. -/
def expectName : Reader String := do
  match ← next with
  | some (.word v) => return v
  | _ => refuse

/-- Takes the end of a tag. -/
def expectTagEnd : Reader Unit := do
  match ← next with
  | some .tagEnd => return ()
  | _ => refuse

end Reader

end Scaffold.Stencil
