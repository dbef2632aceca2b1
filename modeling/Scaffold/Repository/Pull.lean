import Scaffold.Repository
import Scaffold.Repository.WorkingTree

/-!
# Pulling

A pull fetches the branch that the head of a working copy is on. What it finds is behind or at
the head, and then nothing is to be done; or it comes after the head, and then the branch moves
there and the files follow; or neither, and then the working copy stays what it is.

A pull is a sequence of steps, and any of them may be refused from outside. A step that is
refused changes nothing, but the steps before it are done.
-/

namespace Scaffold

/-- A repository and the files beside it. -/
structure WorkingCopy where
  repository : Repository
  files : Disk.Node
deriving Inhabited

namespace Pull

/-- The steps of a pull, in order. -/
inductive Step where
  | readHead
  | findOrigin
  | fetch
  | readFetched
  | compare
  | findBranch
  | moveBranch
  | moveHead
  | checkOut
deriving DecidableEq, Repr

/-- What comes of a pull that does not fail. -/
inductive Outcome where
  | upToDate
  | fastForwarded
  | diverged
deriving DecidableEq, Repr

/-- What a pull meets: the history, the repository at an address, and which steps are
refused. -/
structure Surroundings where
  history : History
  look : String → Except Repository.Fault Repository
  refuses : Step → Bool := fun _ => false

end Pull

/-- A change of a working copy that may fail half way. -/
abbrev Pull (α : Type) := ExceptT Repository.Fault (StateM WorkingCopy) α

namespace Pull

/-- Runs a change; the working copy is what it is after the last step. -/
def perform {α : Type} (p : Pull α) (w : WorkingCopy) : Except Repository.Fault α × WorkingCopy :=
  StateT.run (ExceptT.run p) w

/-- Does a step unless it is refused. -/
def step {α : Type} (s : Surroundings) (name : Step) (p : Pull α) : Pull α :=
  if s.refuses name then throw .refused else p

/-- What a working copy has, or else a fault. -/
def need {α : Type} (fault : Repository.Fault) (f : Repository → Option α) : Pull α := do
  match f (← get).repository with
  | some a => return a
  | none => throw fault

/-- Changes the repository. -/
def change (f : Repository → Repository) : Pull Unit :=
  modify fun w => { w with repository := f w.repository }

/-- Fetches what a repository has under a name. -/
def fetch (s : Surroundings) (url name : String) : Pull Unit := do
  match s.look url with
  | .error f => throw f
  | .ok remote =>
    change fun r =>
      { r with fetched := remote.tip? name,
               commits := Repository.union r.commits remote.commits }

/-- Checks out the commit of the head over what is tracked. -/
def checkOutHead (h : History) : Pull Unit :=
  modify fun w =>
    let id? := w.repository.headCommit?
    { repository := { w.repository with tracked := id? }
      files := Snapshot.checkOut (w.repository.snapshot h) (id?.elim [] h.snapshot) w.files }

/-- Moves a branch that is there, puts the head on it and lets the files follow. -/
def fastForward (s : Surroundings) (name : String) (id : CommitId) : Pull Unit := do
  step s .findBranch <| do
    let _ ← need (.noBranch name) fun r => Entries.get? name r.branches
  step s .moveBranch <| change fun r => { r with branches := Entries.insert name id r.branches }
  step s .moveHead <| change fun r => { r with head := some (.branch name) }
  step s .checkOut <| checkOutHead s.history

/-- Brings a working copy up to date. -/
def run (s : Surroundings) : Pull Outcome := do
  let (name, ours) ← step s .readHead <| need .noHead (·.namedHead?)
  let url ← step s .findOrigin <| need .noOrigin (·.origin)
  step s .fetch <| fetch s url name
  let theirs ← step s .readFetched <| need (.noBranch name) (·.fetched)
  match ← step s .compare <| pure (s.history.relation ours theirs) with
  | .ahead => return .upToDate
  | .diverged => return .diverged
  | .behind =>
    fastForward s name theirs
    return .fastForwarded

end Pull

end Scaffold
