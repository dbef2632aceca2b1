import Scaffold.Disk.Resolve

/-!
# Changing files

An action changes a disk step by step; what it did before it failed stays done. Paths follow
links, so an action on a path acts on what the path leads to.
-/

namespace Scaffold

/-- A change of a disk that may fail half way. -/
abbrev Disk.Action (α : Type) := ExceptT Disk.Fault (StateM Disk) α

namespace Disk.Action

/-- Runs an action; the disk is what it is after the last step, whatever came of it. -/
def perform {α : Type} (a : Disk.Action α) (d : Disk) : Except Fault α × Disk :=
  StateT.run (ExceptT.run a) d

/-- What can be seen on the disk. -/
def look {α : Type} (f : Disk → Except Fault α) : Disk.Action α := do
  ExceptT.mk (return f (← get))

/-- Stores a node at a location, or removes what is there. -/
def store (location : Location) (n : Option Node) : Disk.Action Unit :=
  modify fun d => { d with top := d.top.put n location }

/-- Writes the bytes of a file, which keeps its permissions; a new one is not executable. -/
def writeBytes (p : Path) (bytes : ByteArray) : Disk.Action Unit := do
  let found ← look (·.resolve true p)
  match found.node with
  | some (.file _ executable) => store found.location (some (.file bytes executable))
  | none => store found.location (some (.file bytes false))
  | some _ => throw .isDirectory

/-- Writes the text of a file. -/
def writeText (p : Path) (text : String) : Disk.Action Unit := writeBytes p text.toUTF8

/-- Makes a directory in one that is there. A slash at the end says nothing more. -/
def makeDir (p : Path) : Disk.Action Unit := do
  let found ← look (·.resolve false p.withoutSlash)
  match found.node with
  | some _ => throw .alreadyExists
  | none => store found.location (some (.dir []))

/-- Makes a directory; it may be there already. -/
def ensureDir (p : Path) : Disk.Action Unit := do
  let d ← get
  match (makeDir p).perform d with
  | (.ok _, d) => set d
  | (.error f, _) => if d.isDir p then pure () else throw f

/-- Makes the directories of some paths, the last one first, unless the first one can be made
at once. -/
def ensureDirsFrom : List Path → Disk.Action Unit
  | [] => throw .notFound
  | p :: above => do
    if p.text.isEmpty then return
    let d ← get
    match (makeDir p).perform d with
    | (.ok _, d) => set d
    | (.error .notFound, _) =>
      ensureDirsFrom above
      ensureDir p
    | (.error f, _) => if d.isDir p then pure () else throw f

/-- A path and the paths above it, at most `fuel` of them. -/
def pathsUp : Nat → Path → List Path
  | 0, p => [p]
  | fuel + 1, p => p :: (p.parent?.elim [] (pathsUp fuel))

/-- Makes a directory and those above it; what is there stays. -/
def makeDirs (p : Path) : Disk.Action Unit := ensureDirsFrom (pathsUp p.parts.length p)

/-- Copies the bytes and permissions of a file. The target is emptied before the source is
read, so a file that is copied to itself is lost. -/
def copyFile (source target : Path) : Disk.Action Unit := do
  let (sourceLocation, n) ← look (·.stat source)
  match n with
  | .file bytes executable =>
    let found ← look (·.resolve true target)
    if found.node.any (!·.isFile) then throw .isDirectory
    let bytes := if found.location = sourceLocation then ByteArray.empty else bytes
    store found.location (some (.file bytes executable))
  | _ => throw .notFile

/-- Removes what a path leads to; a link goes, and what it leads to stays. -/
def remove (p : Path) : Disk.Action Unit := do
  let (location, _) ← look (·.linkStat p)
  store location none

end Disk.Action

end Scaffold
