import Scaffold.Disk.Resolve

/-!
# Walking through directories

A walk lists a directory and everything below it, each directory before what it holds and
names in order. Links are followed, and one that leads back to a directory that the walk is
in is a fault. Each link that is followed leads into a directory that the walk is not in, so
the number of directories bounds how many are followed on one way.
-/

namespace Scaffold.Disk

/-- What a walk comes by: a directory or something else. The names lead there from where the
walk started. -/
structure Visit where
  names : List String
  isDir : Bool
deriving DecidableEq, Repr

/-- A directory that the walk is in: where it is, and the path that led there. -/
abbrev Inside := List (Location × Path)

/-- How a link to a directory is gone through: from its location and node, with the
directories that the walk is in, the names, and the path that led there. -/
abbrev Enter := Inside → List String → Location → Path → Node → List (Except Fault Visit)

mutual

/-- Goes through a directory or past anything else, where links are left to `enter`. -/
def visitNode (d : Disk) (enter : Enter) (inside : Inside) (names : List String)
    (location : Location) (path : Path) : Node → List (Except Fault Visit)
  | .file .. => [.ok ⟨names, false⟩]
  | .dir entries =>
    .ok ⟨names, true⟩ ::
      visitEntries d enter ((location, path) :: inside) names location path entries
  | .link _ =>
    match d.stat path with
    | .error f => [.error (.walking path.text f)]
    | .ok (target, n) =>
      if n.isDir then
        match inside.find? (·.1 == target) with
        | some ancestor => [.error (.cycle path.text ancestor.2.text)]
        | none => enter inside names target path n
      else [.ok ⟨names, false⟩]

/-- Goes through the entries of a directory. -/
def visitEntries (d : Disk) (enter : Enter) (inside : Inside) (names : List String)
    (location : Location) (path : Path) : List (String × Node) → List (Except Fault Visit)
  | [] => []
  | (name, n) :: rest =>
    visitNode d enter inside (names ++ [name]) (location ++ [name]) (path.join name) n ++
      visitEntries d enter inside names location path rest

end

/-- Goes through a directory, over at most some number of links. -/
def visit (d : Disk) : Nat → Enter
  | 0, _, _, _, path, _ => [.error (.walking path.text .tooManyLinks)]
  | links + 1, inside, names, location, path, n =>
    visitNode d (visit d links) inside names location path n

/-- The walk from a path. -/
def walkFrom (d : Disk) (p : Path) : List (Except Fault Visit) :=
  match d.linkStat p with
  | .error f => [.error (.walking p.text f)]
  | .ok (location, n) => visit d (d.top.dirCount + 1) [] [] location p n

end Scaffold.Disk
