import Scaffold.Disk
import Scaffold.Entries

/-!
# Commits

A commit is a snapshot of tracked files, with the commits that came before it. A history knows
commits by their ids; it only grows, and a commit that is added twice keeps its id.

`History.isAncestor` follows parents, and `History.relation` says how two commits stand to each
other. `get?_add` says that the id of a commit that was added leads to it.
-/

namespace Scaffold

/-- Where a commit stands in the history. -/
abbrev CommitId := Nat

/-- Files are compared by the list of their bytes. -/
instance (priority := 2000) decEqBytes : DecidableEq ByteArray := fun a b =>
  decidable_of_iff (a.data.toList = b.data.toList) <| by
    cases a
    cases b
    simp [Array.toList_inj]

/-- What is tracked at a path. -/
inductive Tracked where
  | file (bytes : ByteArray) (executable : Bool)
  | link (target : String)
  /-- A submodule, at a commit of its own repository. -/
  | submodule (commit : CommitId)
deriving DecidableEq

/-- What is tracked, by paths with slashes between their names. -/
abbrev Snapshot := Entries Tracked

/-- A snapshot and the commits before it. -/
structure Commit where
  snapshot : Snapshot
  parents : List CommitId
  message : String
deriving DecidableEq

/-- All commits there are; the id of a commit is its place. -/
structure History where
  commits : List Commit := []
deriving Inhabited

/-- How a commit stands to another one: whether it is the other one or comes after it, is
before it, or neither. -/
inductive Relation where
  | ahead
  | behind
  | diverged
deriving DecidableEq, Repr

namespace History

/-- The commit of an id. -/
def get? (h : History) (id : CommitId) : Option Commit := h.commits[id]?

/-- The commits before a commit. -/
def parents (h : History) (id : CommitId) : List CommitId := (h.get? id).elim [] (·.parents)

/-- What a commit tracks. -/
def snapshot (h : History) (id : CommitId) : Snapshot := (h.get? id).elim [] (·.snapshot)

/-- The id of a commit, which is added unless it is there. -/
def add (h : History) (c : Commit) : CommitId × History :=
  match h.commits.idxOf? c with
  | some id => (id, h)
  | none => (h.commits.length, ⟨h.commits ++ [c]⟩)

theorem get?_add (h : History) (c : Commit) : (h.add c).2.get? (h.add c).1 = some c := by
  unfold add
  split
  · rename_i id hid
    obtain ⟨hlt, hc, -⟩ := List.findIdx?_eq_some_iff_getElem.1 hid
    simp only [get?, List.getElem?_eq_getElem hlt]
    simpa using hc
  · simp [get?]

/-- Whether parents lead from a commit to another one in at most `steps` steps. -/
def leadsTo (h : History) : Nat → CommitId → CommitId → Bool
  | 0, start, goal => start == goal
  | steps + 1, start, goal => start == goal || (h.parents start).any (leadsTo h steps · goal)

/-- Whether a commit is another one or comes before it. -/
def isAncestor (h : History) (older newer : CommitId) : Bool :=
  h.leadsTo h.commits.length newer older

/-- How a commit stands to another one. -/
def relation (h : History) (ours theirs : CommitId) : Relation :=
  if h.isAncestor theirs ours then .ahead
  else if h.isAncestor ours theirs then .behind
  else .diverged

/-- The commit that is some steps before another one, by first parents. -/
def back (h : History) : Nat → CommitId → Option CommitId
  | 0, id => some id
  | n + 1, id => (h.parents id).head?.bind (back h n)

end History

end Scaffold
