import Scaffold.Disk.Resolve
import Scaffold.Failure
import Scaffold.Host

/-!
# Where templates come from

A template is asked for by an identifier. Without a slash it names a core template, with one
it names the owner and the repository, and with more it is an address as it stands. A local
template of the same name goes first.
-/

namespace Scaffold

/-- What an identifier is. -/
inductive IdentifierKind where
  | core
  | shorthand
  | explicit
deriving DecidableEq, Repr

/-- The kind of an identifier, by the number of its slashes. -/
def IdentifierKind.of (identifier : String) : IdentifierKind :=
  match identifier.toList.count '/' with
  | 0 => core
  | 1 => shorthand
  | _ => explicit

/-- Turns identifiers into addresses. -/
structure Resolver where
  host : String
  /-- Who owns the core templates. -/
  org : String
  /-- What the names of the repositories of core templates start with. -/
  lead : String
deriving DecidableEq, Repr

namespace Resolver

/-- A resolver for a host that makes sense. -/
def forHost (host org lead : String) : Except Failure Resolver :=
  match Host.check host with
  | .ok _ => .ok { host, org, lead }
  | .error f => .error (.settings s!"invalid template host '{host}': {f.message}")

/-- The address that an identifier stands for. -/
def resolve (r : Resolver) (identifier : String) : String :=
  match IdentifierKind.of identifier with
  | .core => s!"https://{r.host}/{r.org}/{r.lead}{identifier}.git"
  | .shorthand => s!"https://{r.host}/{identifier}.git"
  | .explicit => identifier

end Resolver

/-- Where a template is. -/
inductive TemplateSource where
  | here (directory : Path)
  | remote (url : String)
deriving DecidableEq, Repr

/-- A local directory with a manifest, or else the address that the identifier stands for. -/
def TemplateSource.locate (d : Disk) (localRoot : Path) (r : Resolver) (manifestFile : String)
    (identifier : String) : TemplateSource :=
  let directory := localRoot.join identifier
  if d.isFile (directory.join manifestFile) then .here directory
  else .remote (r.resolve identifier)

end Scaffold
