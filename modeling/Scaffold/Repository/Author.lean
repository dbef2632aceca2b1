import Scaffold.Disk.Action
import Scaffold.Repository.Depot

/-!
# Writing history

What the author of a repository does to it: making it, committing all files beside it, going
back, and moving between branches.
-/

namespace Scaffold.Depot

open Disk Repository

/-- Makes a repository without commits beside the files of a directory, which is made if it is
not there. -/
def establish (p : Path) (branch : String) : Action Unit := do
  let d ← get
  let (result, disk) := (Disk.Action.makeDirs p).perform d.disk
  set { d with disk }
  match result, disk.stat p with
  | .ok _, .ok (location, .dir _) =>
    changeAt location (Node.force (create (Repository.new branch)) [repositoryDirName])
  | _, _ => throw .notRepository

/-- The commit of the head of the repository beside some files. -/
def headAt (d : Depot) (files : Location) : Option CommitId := do
  let s ← d.siteAt? files
  (← (d.read s).toOption).headCommit?

/-- Does something with the repository of a path. -/
def withSite {α : Type} (p : Path) (f : Site → Repository → Action α) : Action α := do
  let s ← inspect (·.siteOf p)
  let r ← inspect (·.read s)
  f s r

/-- Commits all files beside a repository, with submodules at the commits that other
repositories are at. -/
def commitAll (p : Path) (submodules : Entries Path) (message : String) : Action CommitId :=
  withSite p fun s r => do
    let d ← get
    let copy ← inspect (·.workingCopy s)
    let staged := Snapshot.stage (fun below => d.headAt (s.files ++ below)) (r.snapshot d.history)
      [] copy.files []
    let heads := submodules.filterMap fun e =>
      ((d.siteOf e.2).toOption.bind fun inner => (d.read inner).toOption.bind (·.headCommit?)).map
        fun id => (e.1, Tracked.submodule id)
    let snapshot := heads.foldl (fun s e => Entries.insert e.1 e.2 s) staged
    let (id, history) := d.history.add { snapshot, parents := r.headCommit?.toList, message }
    set { d with history }
    save s r (advance id { r with commits := Repository.union r.commits [id] })
    return id

/-- Lets the files follow the head after a change of the repository. -/
def changeAndCheckOut (s : Site) (f : Repository → Repository) : Action Unit := do
  let h := (← get).history
  changeCopy s do
    Pull.change f
    Pull.checkOutHead h

/-- Goes back some commits. -/
def rewind (p : Path) (steps : Nat) : Action Unit :=
  withSite p fun s r => do
    match r.headCommit?.bind ((← get).history.back steps) with
    | none => throw .noCommit
    | some id => changeAndCheckOut s fun r => { advance id r with tracked := r.tracked }

/-- Starts a branch at the head and goes on it. -/
def startBranch (p : Path) (name : String) : Action Unit :=
  withSite p fun s r => do
    match r.headCommit? with
    | none => throw .noCommit
    | some id =>
      save s r { r with head := some (.branch name), branches := Entries.insert name id r.branches }

/-- Goes on a branch that is there. -/
def switchBranch (p : Path) (name : String) : Action Unit :=
  withSite p fun s r =>
    if Entries.has name r.branches then
      changeAndCheckOut s fun r => { r with head := some (.branch name) }
    else throw (.noBranch name)

/-- Leaves the branch and stays at its commit. -/
def detach (p : Path) : Action Unit :=
  withSite p fun s r => do
    match r.headCommit? with
    | none => throw .noCommit
    | some id => save s r { r with head := some (.detached id) }

/-- Removes a branch. -/
def dropBranch (p : Path) (name : String) : Action Unit :=
  withSite p fun s r => save s r { r with branches := Entries.erase name r.branches }

/-- Changes the address that is fetched from. -/
def setOrigin (p : Path) (url : Option String) : Action Unit :=
  withSite p fun s r => save s r { r with origin := url }

end Scaffold.Depot
