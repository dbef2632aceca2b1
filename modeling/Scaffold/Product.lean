import Scaffold.Resolver
import Scaffold.Text.Case

/-!
# Products

A product is what the program calls itself and where it looks for templates. Variables of the
environment, whose names start with the product's, say otherwise; an empty one says nothing.
-/

namespace Scaffold

/-- A variable of the environment that is not empty. -/
def setting? (env : Entries String) (name : String) : Option String :=
  (Entries.get? name env).filter (!·.isEmpty)

/-- What a program is called and where its templates come from. -/
structure Product where
  name : String
  displayName : String := ""
  description : String := ""
  org : String
  host : String := "github.com"
  lead : String := "cli-project-template-"
  manifestFile : String := "template.yml"
  projectFile : String := "project.yml"
deriving DecidableEq, Repr

namespace Product

/-- The name of the variable for another host. -/
def hostVariable (p : Product) : String := Text.upper p.name ++ "_TEMPLATE_HOST"

/-- The name of the variable for another directory of local templates. -/
def localVariable (p : Product) : String := Text.upper p.name ++ "_TEMPLATES_LOCAL"

/-- The name of the variable for another directory of checkouts. -/
def cacheVariable (p : Product) : String := Text.upper p.name ++ "_TEMPLATES_CACHE"

/-- The directory in the home directory that belongs to the product. -/
def homeDirName (p : Product) : String := "." ++ p.name

/-- The resolver of the product. -/
def resolver (p : Product) (env : Entries String) : Except Failure Resolver :=
  Resolver.forHost ((setting? env p.hostVariable).getD p.host) p.org p.lead

end Product

/-- The home directory. -/
def home (env : Entries String) : Except Failure Path :=
  match setting? env "HOME" with
  | some h => .ok ⟨h⟩
  | none => .error (.settings "could not determine the home directory")

/-- A path in which a tilde in the first place stands for the home directory. -/
def expandHome (env : Entries String) (path : String) : Except Failure Path :=
  match path.toList with
  | ['~'] => home env
  | '~' :: '/' :: rest => return (← home env).join (String.ofList rest)
  | _ => .ok ⟨path⟩

/-- Where local templates and checkouts are. -/
structure TemplatePaths where
  localRoot : Path
  cacheRoot : Path
deriving DecidableEq, Repr

/-- Where the templates and checkouts of a product are. -/
def TemplatePaths.of (p : Product) (env : Entries String) : Except Failure TemplatePaths := do
  let localRoot ← match setting? env p.localVariable with
    | some path => expandHome env path
    | none => pure (((← home env).join p.homeDirName).join "templates")
  let cacheRoot ← match setting? env p.cacheVariable with
    | some path => expandHome env path
    | none => pure ((((← home env).join p.homeDirName).join ".cache").join "templates")
  return { localRoot, cacheRoot }

end Scaffold
