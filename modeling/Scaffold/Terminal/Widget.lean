import Scaffold.Question
import Scaffold.Terminal.Line
import Scaffold.Text.Split

/-!
# Questions answered with keys

Each kind of question reads keys until it is answered or cancelled, and leaves the others to
the next question. Keys that run out cancel.
-/

namespace Scaffold

namespace Terminal

/-- How a question ended. -/
inductive Ending (α : Type) where
  | answered (a : α)
  | cancelled
deriving DecidableEq, Repr

/-- Reads a line. An empty one is only an answer if `emptyAllowed`. -/
def readLine (emptyAllowed : Bool) : Line → List Key → Ending String × List Key
  | _, [] => (.cancelled, [])
  | l, k :: keys =>
    match k with
    | .escape => (.cancelled, keys)
    | .enter =>
      if emptyAllowed || !l.text.isEmpty then (.answered (String.ofList l.text), keys)
      else readLine emptyAllowed l keys
    | k => readLine emptyAllowed (l.press k) keys

/-- Reads lines. The escape key leads to a preview, in which the enter key answers and the
escape key cancels. -/
def readLines (inPreview : Bool) : Line → List Key → Ending String × List Key
  | _, [] => (.cancelled, [])
  | l, k :: keys =>
    match inPreview, k with
    | true, .enter => (.answered (String.ofList l.text), keys)
    | true, .escape => (.cancelled, keys)
    | true, .char c => readLines false (l.insert c) keys
    | true, .backspace => readLines false l.backspace keys
    | true, _ => readLines false l keys
    | false, .escape => readLines true l keys
    | false, .enter => readLines false (l.insert '\n') keys
    | false, k => readLines false (l.press k) keys

/-- Reads yes or no. -/
def readFlag : Bool → List Key → Ending Bool × List Key
  | _, [] => (.cancelled, [])
  | yes, k :: keys =>
    match k with
    | .escape => (.cancelled, keys)
    | .enter => (.answered yes, keys)
    | .up | .down | .left | .right => readFlag (!yes) keys
    | .char c =>
      if c = 'y' ∨ c = 'Y' then (.answered true, keys)
      else if c = 'n' ∨ c = 'N' then (.answered false, keys)
      else if c = 'h' ∨ c = 'j' ∨ c = 'k' ∨ c = 'l' then readFlag (!yes) keys
      else readFlag yes keys
    | _ => readFlag yes keys

/-- Where the cursor of a list with a last place goes. -/
def moveCursor (last cursor : Nat) : Key → Nat
  | .up | .left | .char 'k' | .char 'h' => cursor - 1
  | .down | .right | .char 'j' | .char 'l' => min last (cursor + 1)
  | _ => cursor

/-- Reads one of a list of options. -/
def readOption (options : List String) : Nat → List Key → Ending String × List Key
  | _, [] => (.cancelled, [])
  | cursor, k :: keys =>
    match k with
    | .escape => (.cancelled, keys)
    | .enter => (.answered (options.getD cursor ""), keys)
    | k => readOption options (moveCursor (options.length - 1) cursor k) keys

/-- Reads some of a list of options; each has a flag that says whether it is chosen. -/
def readOptions (options : List (String × Bool)) : Nat → List Key →
    Ending (List String) × List Key
  | _, [] => (.cancelled, [])
  | cursor, k :: keys =>
    match k with
    | .escape => (.cancelled, keys)
    | .enter => (.answered ((options.filter (·.2)).map (·.1)), keys)
    | .char ' ' =>
      readOptions (options.modify cursor fun o => (o.1, !o.2)) cursor keys
    | k => readOptions options (moveCursor (options.length - 1) cursor k) keys

end Terminal

/-- The defaults that name options, in the order in which they are written between commas. -/
def Question.Display.defaultOptions (d : Question.Display) : List String :=
  ((Text.pieces ',' d.default.toList).map fun item => String.ofList (Text.trim item)).filter
    fun item => d.options.contains item

end Scaffold
