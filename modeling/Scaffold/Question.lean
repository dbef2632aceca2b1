import Scaffold.Question.Transform
import Scaffold.Question.Validation

/-!
# Questions

A question has a name, under which its answer is stored, a kind, which says how it is shown
and what kind of answer it yields, and a gate, which says whether it is asked at all.
-/

namespace Scaffold

namespace Question

/-- How a question is shown. -/
inductive Kind where
  | input
  | multiline
  | password
  | confirm
  | select
  | multiSelect
  | editor
deriving DecidableEq, Repr, Inhabited

/-- The names of the kinds; the first one of each counts as its own. -/
def Kind.names : List (String × Kind) :=
  [("Input", input), ("input", input), ("Multiline", multiline), ("multiline", multiline),
    ("Password", password), ("password", password), ("Confirm", confirm), ("confirm", confirm),
    ("Select", select), ("select", select), ("MultiSelect", multiSelect),
    ("multiSelect", multiSelect), ("multiselect", multiSelect), ("Editor", editor),
    ("editor", editor)]

/-- What a question shows and offers. -/
structure Display where
  message : String := ""
  default : String := ""
  help : String := ""
  options : List String := []
  pageSize : Nat := 0
  vimMode : Bool := false
  editor : String := ""
  hideDefault : Bool := false
  appendDefault : Bool := false
  fileName : String := ""
deriving DecidableEq, Repr, Inhabited

/-- Whether the default of a yes-or-no question is yes. -/
def Display.defaultFlag (d : Display) : Bool :=
  ["true", "t", "yes", "y", "1"].contains (Text.lower (String.ofList (Text.trim d.default.toList)))

end Question

/-- A question. -/
structure Question where
  name : String
  kind : Question.Kind
  display : Question.Display := {}
  rules : Validation := {}
  transform : Transform := .none
  /-- The gate; a question with an empty one is always asked. -/
  gate : String := ""
deriving DecidableEq, Repr, Inhabited

/-- What a question says; its name if it has no message. -/
def Question.message (q : Question) : String :=
  if q.display.message.isEmpty then q.name else q.display.message

/-- The questions of a template, in order. -/
structure Prompt where
  /-- The name under which the answers are stored. -/
  name : String := ""
  questions : List Question := []
deriving DecidableEq, Repr, Inhabited

end Scaffold
