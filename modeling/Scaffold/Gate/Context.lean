import Scaffold.Answer
import Scaffold.Stencil.Value
import Scaffold.Yaml.Value

/-!
# What gates and files can see

A `Context` holds the answers given so far, what the template says about itself, the values
that belong to a rule, and the variables of the environment.
-/

namespace Scaffold

/-- What a template says about itself. -/
structure TemplateInfo where
  name : String := ""
  author : String := ""
  description : String := ""
deriving DecidableEq, Repr, Inhabited

/-- What expressions can see. -/
structure Context where
  answers : AnswerMap := []
  template : TemplateInfo := {}
  vars : Entries Yaml.Value := []
  env : Entries String := []
deriving Inhabited

/-- An answer as a value of expressions. -/
def Answer.toValue : Answer → Stencil.Value
  | text t => .text t
  | flag b => .bool b
  | list l => .items (l.map .text)

mutual

/-- A value of YAML as a value of expressions. A variant becomes a map with its name as the
only key. -/
def Yaml.Value.toValue : Yaml.Value → Stencil.Value
  | .null => .none
  | .bool b => .bool b
  | .int n => .int n
  | .float x => .float x
  | .str t => .text t
  | .seq l => .items (Yaml.Value.toValues l)
  | .map e => .mapOf (Yaml.Value.toPairs e)
  | .tagged t v => .map [(.text (Yaml.Value.markedTag t), Yaml.Value.toValue v)]

def Yaml.Value.toValues : List Yaml.Value → List Stencil.Value
  | [] => []
  | v :: rest => Yaml.Value.toValue v :: Yaml.Value.toValues rest

def Yaml.Value.toPairs : List (Yaml.Value × Yaml.Value) → List (Stencil.Value × Stencil.Value)
  | [] => []
  | (k, v) :: rest =>
    (Yaml.Value.toValue k, Yaml.Value.toValue v) :: Yaml.Value.toPairs rest

end

namespace Context

/-- The names that expressions start from. -/
def root (c : Context) : List (String × Stencil.Value) :=
  [("Answers", .record (c.answers.map fun p => (p.1, p.2.toValue))),
    ("Template", .record [("Name", .text c.template.name), ("Author", .text c.template.author),
      ("Description", .text c.template.description)]),
    ("Vars", .record (c.vars.map fun p => (p.1, p.2.toValue))),
    ("Env", .record (c.env.map fun p => (p.1, .text p.2)))]

end Context

end Scaffold
