import Scaffold.Repository.Depot

/-!
# Submodules

A submodule is a directory with a working copy of another repository, at a commit that the
snapshot names. A file at the top of the tree says where that repository is fetched from.

Submodules are brought in one after the other, each one with those inside it, down to
`submoduleDepth`; the first one that fails ends it, with what was brought in before.
-/

namespace Scaffold

/-- A submodule that is tracked, or only written about. -/
structure Submodule where
  name : String
  path : String
  url : Option String := none
  /-- None if the snapshot does not track it. -/
  commit : Option CommitId := none
deriving DecidableEq, Repr

namespace Submodule

open Disk Repository

/-- The file that says where submodules are fetched from. -/
def settingsName : String := ".gitmodules"

/-- What the names of the settings of submodules start with. -/
def keyLead : String := "submodule."

/-- The name of the submodule that a setting is about. -/
def nameOfKey? (key : String) : Option String := do
  let rest := (← without? keyLead key).toList.reverse
  let name := ((rest.dropWhile (· ≠ '.')).drop 1).reverse
  if name.isEmpty then none else some (String.ofList name)

/-- Whether a name or path stays inside of the repository. -/
def isInside (name : String) : Bool :=
  ((Path.mk "").containedJoin name).isSome

/-- The submodules that settings are about. -/
def ofSettings (settings : Entries String) : List Submodule :=
  let names := (settings.filterMap fun e => nameOfKey? e.1).filter isInside
  names.eraseDups.map fun name =>
    { name
      path := (Entries.get? (keyLead ++ name ++ ".path") settings).getD name
      url := Entries.get? (keyLead ++ name ++ ".url") settings }

/-- Adds a submodule that a snapshot tracks to those that settings are about. -/
def track (subs : Entries Submodule) (path : String) (commit : CommitId) : Entries Submodule :=
  let known := (Entries.get? path subs).getD { name := path, path }
  Entries.insert path { known with commit := some commit } subs

/-- The submodules of a snapshot and settings, in the order of their paths. -/
def all (settings : Entries String) (s : Snapshot) : List Submodule :=
  let written := Entries.ofPairs ((ofSettings settings).map fun sub => (sub.path, sub))
  let tracked := s.foldl (fun subs e =>
    match e.2 with
    | .submodule commit => track subs e.1 commit
    | _ => subs) written
  tracked.map (·.2)

/-- Two locations without what both start with. -/
def apart : Location → Location → Location × Location
  | a :: as, b :: bs => if a = b then apart as bs else (a :: as, b :: bs)
  | as, bs => (as, bs)

/-- The text that leads from the files of a submodule to its repository. -/
def siteText (s : Site) : String :=
  let (up, down) := apart s.files s.directory
  Depot.siteLead ++ "/".intercalate (up.map (fun _ => "..") ++ down) ++ "/"

/-- Where a submodule of a repository is. -/
def site (s : Site) (sub : Submodule) : Site :=
  { directory := s.directory ++ submodulesDir ++ Snapshot.locationOf sub.name
    files := s.files ++ Snapshot.locationOf sub.path }

/-- The submodules at a site. -/
def listAt (s : Site) : Depot.Action (List Submodule) := do
  let d ← get
  let r ← Depot.inspect (·.read s)
  let settings ← match d.statFrom s.files settingsName with
    | none => pure []
    | some (_, .file bytes _) =>
      match (String.fromUTF8? bytes).bind Settings.ofText with
      | some settings => pure settings
      | none => throw .badSettings
    | some _ => throw .badSettings
  return all settings (r.snapshot d.history)

/-- Makes the repository of a submodule and the file that leads to it. -/
def prepare (inner : Site) (r : Repository) : Depot.Action Unit :=
  modify fun d =>
    let top := Node.force (create r) inner.directory d.disk.top
    let top := Node.force (textFile (siteText inner)) (inner.files ++ [repositoryDirName]) top
    { d with disk := { d.disk with top } }

/-- Clones a submodule and checks out the commit that is tracked. -/
def bringIn (s : Site) (sub : Submodule) (commit : CommitId) : Depot.Action Unit := do
  let r ← Depot.inspect (·.read s)
  let some written := sub.url | throw (.noUrl sub.name)
  let some url := resolveAddress (r.origin.getD "") written | throw (.noUrl sub.name)
  let inner := site s sub
  prepare inner (Repository.new initialBranch)
  let remote ← Depot.inspect (·.look url)
  if !remote.commits.contains commit then throw .noCommit
  let cloned : Repository :=
    { head := some (.detached commit), commits := remote.commits, origin := some url }
  prepare inner cloned
  let h := (← get).history
  Depot.changeCopy inner (Pull.checkOutHead h)

/-- Brings in a submodule that is tracked and not there yet, and opens it. -/
def enter (s : Site) (sub : Submodule) : Depot.Action Site := do
  if let some commit := sub.commit then bringIn s sub commit
  let files := s.files ++ Snapshot.locationOf sub.path
  match (← get).siteAt? files with
  | some inner => return inner
  | none => throw .notRepository

/-- How many levels of submodules are brought in. -/
def submoduleDepth : Nat := 10

/-- Brings in the submodules of a repository, and those inside of them. -/
def bringInAll (s : Site) : Depot.Action Unit := Nested.visit listAt enter submoduleDepth s

end Submodule

end Scaffold
