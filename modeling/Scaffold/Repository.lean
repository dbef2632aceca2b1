import Scaffold.Repository.Commit

/-!
# Repositories

A repository knows commits, and branches that stand for some of them. Its head is a branch, or
a commit when it is detached. A branch that the head is on may have no commit yet.

`ofClone` is what a repository is right after it was cloned.
-/

namespace Scaffold

namespace Repository

/-- What the head of a repository is on. -/
inductive Head where
  | branch (name : String)
  | detached (commit : CommitId)
deriving DecidableEq, Repr

/-- Why something cannot be done with a repository. -/
inductive Fault where
  | notRepository
  | badSettings
  /-- Nothing can be fetched from an address. -/
  | unreachable (url : String)
  | noHead
  | noOrigin
  | noBranch (name : String)
  | noCommit
  /-- A submodule has no address, or one that makes no sense. -/
  | noUrl (submodule : String)
  /-- The system refuses for a reason of its own. -/
  | refused
deriving DecidableEq, Repr

end Repository

/-- A repository, without the files beside it. -/
structure Repository where
  /-- No head is one that cannot be read. -/
  head : Option Repository.Head
  branches : Entries CommitId := []
  /-- The commits that the repository holds. -/
  commits : List CommitId := []
  /-- The address that is fetched from. -/
  origin : Option String := none
  /-- The commit whose snapshot is tracked in the working tree. -/
  tracked : Option CommitId := none
  /-- What the last fetch brought. -/
  fetched : Option CommitId := none
deriving DecidableEq, Repr, Inhabited

namespace Repository

/-- The branch of a repository that nobody named one for. -/
def initialBranch : String := "master"

/-- What a head that is on no branch is called. -/
def headName : String := "HEAD"

/-- A repository without commits. -/
def new (branch : String) : Repository := { head := some (.branch branch) }

/-- The commit of the head. -/
def headCommit? (r : Repository) : Option CommitId :=
  r.head.bind fun
    | .branch name => Entries.get? name r.branches
    | .detached id => some id

/-- The name and commit of the head. -/
def namedHead? (r : Repository) : Option (String × CommitId) :=
  r.head.bind fun
    | .branch name => (Entries.get? name r.branches).map (name, ·)
    | .detached id => some (headName, id)

/-- The commit that others find under a name. -/
def tip? (r : Repository) (name : String) : Option CommitId :=
  if name = headName then r.headCommit? else Entries.get? name r.branches

/-- What is tracked in the working tree. -/
def snapshot (h : History) (r : Repository) : Snapshot := r.tracked.elim [] h.snapshot

/-- The branch that a clone starts on: the one that the head is on, or else one that stands for
the same commit. -/
def defaultBranch? (r : Repository) (id : CommitId) : Option String :=
  match r.head with
  | some (.branch name) => some name
  | _ =>
    let names := (r.branches.filter (·.2 == id)).map (·.1)
    if names.contains initialBranch then some initialBranch else names.head?

/-- Commits together with those that are not among them yet. -/
def union (ours theirs : List CommitId) : List CommitId :=
  ours ++ theirs.filter (!ours.contains ·)

/-- A repository that was cloned from another one, whose head it starts on. -/
def ofClone (url : String) (remote : Repository) : Repository :=
  let base : Repository :=
    { head := some (.branch initialBranch), commits := remote.commits, origin := some url }
  match remote.headCommit? with
  | none => base
  | some id =>
    match remote.defaultBranch? id with
    | some name =>
      { base with head := some (.branch name), branches := [(name, id)], tracked := some id }
    | none => { base with head := some (.detached id), tracked := some id }

/-- A repository with its head at a commit: the branch that the head is on moves along. -/
def advance (id : CommitId) (r : Repository) : Repository :=
  match r.head with
  | some (.branch name) =>
    { r with branches := Entries.insert name id r.branches, tracked := some id }
  | _ => { r with head := some (.detached id), tracked := some id }

end Repository

end Scaffold
