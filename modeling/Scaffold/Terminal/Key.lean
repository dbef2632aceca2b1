/-!
# Keys

What is typed: characters, and keys that have a name of their own. A key that a question does
not know does nothing.
-/

namespace Scaffold.Terminal

/-- A key. -/
inductive Key where
  | char (c : Char)
  | enter
  | escape
  | up
  | down
  | left
  | right
  | home
  | toEnd
  | delete
  | backspace
deriving DecidableEq, Repr, Inhabited

/-- The keys with names. -/
def Key.names : List (String × Key) :=
  [("<Enter>", .enter), ("<Esc>", .escape), ("<Up>", .up), ("<Down>", .down), ("<Left>", .left),
    ("<Right>", .right), ("<Home>", .home), ("<End>", .toEnd), ("<Del>", .delete),
    ("<Backspace>", .backspace)]

/-- The key that a typed character is. -/
def Key.ofChar (c : Char) : Key :=
  if c = '\n' ∨ c = '\r' then .enter
  else if c = '\x1b' then .escape
  else if c = '\x7f' ∨ c = '\x08' then .backspace
  else if c = '\x01' then .home
  else if c = '\x05' then .toEnd
  else .char c

/-- The keys of a text: the name of one, or one for each character. -/
def Key.ofText (text : String) : List Key :=
  match names.find? (·.1 == text) with
  | some (_, k) => [k]
  | none => text.toList.map ofChar

end Scaffold.Terminal
