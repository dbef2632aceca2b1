import Scaffold.Answer
import Scaffold.Text.Case
import Scaffold.Text.Slug

/-!
# Transforms

What is done to a text answer before it is stored. Answers of other kinds stay as they are.
-/

namespace Scaffold

/-- What is done to a text answer. -/
inductive Transform where
  | none
  /-- Each word starts with a capital letter. -/
  | title
  /-- All letters are small. -/
  | lower
  /-- Small letters, digits and dashes are left. -/
  | slug
deriving DecidableEq, Repr, Inhabited

namespace Transform

/-- The text that a transform makes of a text. -/
def applyText : Transform → String → String
  | none, t => t
  | title, t => Text.title t
  | lower, t => Text.lower t
  | slug, t => Text.slug t

/-- The answer that a transform makes of an answer. -/
def apply (transform : Transform) : Answer → Answer
  | .text t => .text (transform.applyText t)
  | a => a

/-- The names of the transforms; the first one of each counts as its own. -/
def names : List (String × Transform) :=
  [("", none), ("None", none), ("none", none), ("Title", title), ("title", title),
    ("ToLower", lower), ("lower", lower), ("toLower", lower), ("Slug", slug), ("slug", slug)]

end Transform

end Scaffold
