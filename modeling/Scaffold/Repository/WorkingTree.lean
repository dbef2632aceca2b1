import Scaffold.Repository.Commit
import Scaffold.Text.Split

/-!
# Working trees

A working tree is a directory with what a snapshot tracks, and whatever else is there. Checking
out a snapshot over an older one makes every tracked path what the snapshot says, removes what
only the older one tracks, and leaves the rest. Staging goes the other way: it reads a snapshot
off a tree.
-/

namespace Scaffold

namespace Disk.Node

/-- Puts a node where a location leads, and directories on the way there. What is no directory
on the way makes room. -/
def force (new : Node) : Location → Node → Node
  | [], _ => new
  | name :: rest, n =>
    .dir (Entries.insert name (force new rest ((n.child? name).getD (.dir []))) n.entries)

/-- Removes what a location leads to, and the directories above it that are empty then. -/
def cut : Location → Node → Option Node
  | [], _ => none
  | name :: rest, n =>
    match n.child? name with
    | none => some n
    | some c =>
      match cut rest c with
      | some c => some (.dir (Entries.insert name c n.entries))
      | none =>
        match Entries.erase name n.entries with
        | [] => none
        | entries => some (.dir entries)

end Disk.Node

/-- The name of the directory that a repository keeps its files in. -/
def repositoryDirName : String := ".git"

namespace Snapshot

open Disk

/-- The location of a tracked path below the top of the tree. -/
def locationOf (path : String) : Location := (Text.pieces '/' path.toList).map String.ofList

/-- The tracked path of a location. -/
def pathOf (location : Location) : String := "/".intercalate location

/-- Whether a node can be what was tracked. An untracked directory in place of a file is
not. -/
def mayBe (t : Tracked) (n : Node) : Bool :=
  match t with
  | .submodule _ => true
  | _ => !n.isDir

/-- Removes what an older snapshot tracks and a newer one does not. -/
def removeOld (new : Snapshot) : Snapshot → Node → Node
  | [], n => n
  | (path, t) :: rest, n =>
    let location := locationOf path
    let gone := !Entries.has path new && (n.at? location).any (mayBe t)
    removeOld new rest (if gone then (Node.cut location n).getD (.dir []) else n)

/-- Makes a path what is tracked there. A submodule is a directory, empty if it is new. -/
def place (path : String) (t : Tracked) (n : Node) : Node :=
  let location := locationOf path
  match t with
  | .file bytes executable => Node.force (.file bytes executable) location n
  | .link target => Node.force (.link target) location n
  | .submodule _ =>
    if (n.at? location).any (·.isDir) then n else Node.force (.dir []) location n

/-- Makes every path of a snapshot what it says. -/
def placeAll : Snapshot → Node → Node
  | [], n => n
  | (path, t) :: rest, n => placeAll rest (place path t n)

/-- Checks out a snapshot over an older one. -/
def checkOut (old new : Snapshot) (n : Node) : Node := placeAll new (removeOld new old n)

mutual

/-- What a node stages, where `headAt` is the commit of the repository at a location, and a
submodule of the older snapshot stays one. -/
def stage (headAt : Location → Option CommitId) (old : Snapshot) (location : Location) :
    Node → Snapshot → Snapshot
  | .file bytes executable, s => Entries.insert (pathOf location) (.file bytes executable) s
  | .link target, s => Entries.insert (pathOf location) (.link target) s
  | .dir entries, s =>
    let path := pathOf location
    if !location.isEmpty && Entries.has repositoryDirName entries then
      (headAt location).elim s fun id => Entries.insert path (.submodule id) s
    else
      match Entries.get? path old with
      | some (.submodule id) => Entries.insert path (.submodule id) s
      | _ => stageAll headAt old location entries s

/-- What the entries of a directory stage. The files of the repository are not staged. -/
def stageAll (headAt : Location → Option CommitId) (old : Snapshot) (location : Location) :
    List (String × Node) → Snapshot → Snapshot
  | [], s => s
  | (name, n) :: rest, s =>
    stageAll headAt old location rest <|
      if name = repositoryDirName then s else stage headAt old (location ++ [name]) n s

end

end Snapshot

end Scaffold
