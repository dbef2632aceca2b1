import Scaffold.Terminal.Key

/-!
# Editing text with keys

A text that is being typed, with a cursor between two characters. `text` is what was typed;
`text_insert`, `text_left` and `text_right` say what a key does to it.
-/

namespace Scaffold.Terminal

/-- A text with a cursor. -/
structure Line where
  /-- The characters before the cursor, last one first. -/
  before : List Char := []
  after : List Char := []
deriving DecidableEq, Repr, Inhabited

namespace Line

/-- The text that is being typed. -/
def text (l : Line) : List Char := l.before.reverse ++ l.after

/-- Puts a character before the cursor. -/
def insert (c : Char) (l : Line) : Line := { l with before := c :: l.before }

/-- Removes the character before the cursor. -/
def backspace (l : Line) : Line := { l with before := l.before.drop 1 }

/-- Removes the character after the cursor. -/
def delete (l : Line) : Line := { l with after := l.after.drop 1 }

/-- Moves the cursor over the character before it. -/
def left (l : Line) : Line :=
  match l.before with
  | c :: rest => ⟨rest, c :: l.after⟩
  | [] => l

/-- Moves the cursor over the character after it. -/
def right (l : Line) : Line :=
  match l.after with
  | c :: rest => ⟨c :: l.before, rest⟩
  | [] => l

/-- Moves the cursor over all characters before it up to a line end. -/
def home (l : Line) : Line :=
  let passed := l.before.takeWhile (· ≠ '\n')
  ⟨l.before.drop passed.length, passed.reverse ++ l.after⟩

/-- Moves the cursor over all characters after it up to a line end. -/
def toEnd (l : Line) : Line :=
  let passed := l.after.takeWhile (· ≠ '\n')
  ⟨passed.reverse ++ l.before, l.after.drop passed.length⟩

/-- What a key does that edits. -/
def press (l : Line) : Key → Line
  | .char c => l.insert c
  | .backspace => l.backspace
  | .delete => l.delete
  | .left => l.left
  | .right => l.right
  | .home => l.home
  | .toEnd => l.toEnd
  | _ => l

@[simp] theorem text_insert (c : Char) (l : Line) :
    (l.insert c).text = l.before.reverse ++ c :: l.after := by simp [text, insert]

@[simp] theorem text_left (l : Line) : l.left.text = l.text := by
  obtain ⟨before, after⟩ := l
  cases before <;> simp [left, text]

@[simp] theorem text_right (l : Line) : l.right.text = l.text := by
  obtain ⟨before, after⟩ := l
  cases after <;> simp [right, text]

end Line

end Scaffold.Terminal
