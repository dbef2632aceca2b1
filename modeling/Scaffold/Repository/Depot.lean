import Scaffold.Disk.Resolve
import Scaffold.Repository.Address
import Scaffold.Repository.Files
import Scaffold.Repository.Nested
import Scaffold.Repository.Pull

/-!
# Depots

A depot is a disk with repositories on it, and the history that their commits are from. An
action on it may fail half way, and what it did before it failed stays done.

A repository stands beside its files, in the directory that `repositoryDirName` names. In a
submodule that name belongs to a file that says where the repository is.
-/

namespace Scaffold

/-- A disk with repositories, and the history of their commits. -/
structure Depot where
  disk : Disk
  history : History := {}
deriving Inhabited

/-- A change of a depot that may fail half way. -/
abbrev Depot.Action (α : Type) := ExceptT Repository.Fault (StateM Depot) α

/-- Where a repository is: its own directory, and the top of the files beside it. -/
structure Repository.Site where
  directory : Disk.Location
  files : Disk.Location
deriving DecidableEq, Repr, Inhabited

namespace Depot

open Disk Repository

/-! ## Finding repositories -/

/-- What stands before the path in the file that says where a repository is. -/
def siteLead : String := "gitdir: "

/-- The node that a path leads to from a location. -/
def statFrom (d : Depot) (location : Location) (path : String) : Option (Location × Node) := do
  let found ← ({ d.disk with here := location }.stat ⟨path⟩).toOption
  return found

/-- The directory of the repository beside the files at a location. -/
def directoryOf? (d : Depot) (files : Location) : Option Location := do
  let (location, n) ← d.statFrom files repositoryDirName
  match n with
  | .dir _ => some location
  | .file bytes _ =>
    let path ← without? siteLead (firstLine (← String.fromUTF8? bytes))
    return (← d.statFrom files path).1
  | .link _ => none

/-- Whether a repository is at a location. -/
def hasRepository (d : Depot) (location : Location) : Bool :=
  (d.disk.top.at? location).any isRepository

/-- The repository that a directory belongs to: the one beside it, or the directory itself. -/
def siteAt? (d : Depot) (location : Location) : Option Site :=
  match (d.directoryOf? location).filter d.hasRepository with
  | some directory => some { directory, files := location }
  | none =>
    if d.hasRepository location then some { directory := location, files := location.dropLast }
    else none

/-- Reads a repository. -/
def read (d : Depot) (s : Site) : Except Repository.Fault Repository :=
  match d.disk.top.at? s.directory with
  | some n => ofDir d.history n
  | none => .error .notRepository

/-- The site of a path that leads to a directory. -/
def siteOf (d : Depot) (p : Path) : Except Repository.Fault Site :=
  match d.disk.stat p with
  | .ok (location, .dir _) => (d.siteAt? location).elim (.error .notRepository) .ok
  | _ => .error .notRepository

/-- The repository at an address that can be fetched from. Its head has to make sense. -/
def look (d : Depot) (url : String) : Except Repository.Fault Repository :=
  match pathOfAddress? url with
  | none => .error (.unreachable url)
  | some p =>
    match d.siteOf p with
    | .error _ => .error (.unreachable url)
    | .ok s =>
      match d.read s with
      | .ok r => if r.head.isSome then .ok r else .error (.unreachable url)
      | .error _ => .error (.unreachable url)

/-! ## Changing repositories -/

/-- Runs an action; the depot is what it is after the last step, whatever came of it. -/
def Action.perform {α : Type} (a : Action α) (d : Depot) : Except Repository.Fault α × Depot :=
  StateT.run (ExceptT.run a) d

/-- What can be seen in the depot. -/
def inspect {α : Type} (f : Depot → Except Repository.Fault α) : Action α := do
  ExceptT.mk (return f (← get))

/-- Puts a node at a location, or removes what is there. -/
def put (location : Location) (n : Option Node) : Action Unit :=
  modify fun d => { d with disk := { d.disk with top := d.disk.top.put n location } }

/-- Changes the tree at a location. -/
def changeAt (location : Location) (f : Node → Node) : Action Unit := do
  match (← get).disk.top.at? location with
  | some n => put location (some (f n))
  | none => throw .notRepository

/-- Writes what changed about a repository. -/
def save (s : Site) (old new : Repository) : Action Unit := changeAt s.directory (Repository.save old new)

/-- The working copy of a site: its repository and all files beside it. -/
def workingCopy (d : Depot) (s : Site) : Except Repository.Fault WorkingCopy := do
  match d.disk.top.at? s.files with
  | some files => return { repository := ← d.read s, files }
  | none => throw .notRepository

/-- Changes a working copy. -/
def changeCopy {α : Type} (s : Site) (p : Pull α) : Action α := do
  let old ← inspect (·.workingCopy s)
  let (result, new) := p.perform old
  put s.files (some new.files)
  save s old.repository new.repository
  ExceptT.mk (return result)

/-- The file that a step of a pull writes in the directory of a repository, and that may be
locked. -/
def fileOf? (r : Repository) : Pull.Step → Option Location
  | .moveBranch => r.namedHead?.map fun head => branchesDir ++ Snapshot.locationOf head.1
  | .moveHead => some headFile
  | _ => none

/-- Whether a step of a pull fails as the file that it writes is locked. -/
def isLocked (d : Depot) (s : Site) (step : Pull.Step) : Bool :=
  ((d.read s).toOption.bind (fileOf? · step)).any fun file =>
    (d.disk.top.at? (s.directory ++ lockOf file)).isSome

/-- Pulls a working copy, where some steps are refused from outside. -/
def pull (refuses : Pull.Step → Bool) (s : Site) : Action Pull.Outcome := do
  let d ← get
  changeCopy s <| Pull.run
    { history := d.history, look := d.look, refuses := fun step => refuses step || d.isLocked s step }

/-- Clones the repository at an address into a directory that is not there yet. -/
def clone (url : String) (p : Path) : Action Site := do
  let d ← get
  let remote ← inspect (·.look url)
  match d.disk.resolve true p with
  | .ok ⟨location, none⟩ =>
    let r := ofClone url remote
    put location (some (Snapshot.checkOut [] (r.snapshot d.history)
      (.dir [(repositoryDirName, create r)])))
    return { directory := location ++ [repositoryDirName], files := location }
  | _ => throw (.unreachable url)

end Depot

end Scaffold
