import Scaffold.Disk
import Scaffold.Path

/-!
# Where a path leads

A path is followed name by name. A link on the way is followed where it stands, and at most
forty of them; the last name is followed if the caller asks for it. What is found is a
location, with the node that is there, if any: a path may lead to a place in a directory
where nothing is yet.
-/

namespace Scaffold

namespace Disk

/-- A step on the way. -/
inductive Step where
  | name (name : String)
  | up
  /-- What was reached has to be a directory. -/
  | here
deriving DecidableEq, Repr

/-- The step that a piece of a path stands for. -/
def stepOf (piece : List Char) : Step :=
  match piece with
  | [] | ['.'] => .here
  | ['.', '.'] => .up
  | _ => .name (String.ofList piece)

/-- The steps of a path, and whether they start at the top. An empty piece between others
counts only at the end. -/
def stepsOf (path : String) : Bool × List Step :=
  let chars := path.toList
  let isAbsolute := chars.head? = some '/'
  let rest := chars.dropWhile (· = '/')
  (isAbsolute, if rest.isEmpty then [] else (Text.pieces '/' rest).map stepOf)

/-- What a path leads to. -/
structure Found where
  location : Location
  node : Option Node

/-- How a link is followed: from the directory it is in, with the steps that come after. -/
abbrev Follower := Location → String → List Step → Except Fault Found

/-- Goes steps from a location, where links are left to `follow`. -/
def walkSteps (top : Node) (followLast : Bool) (follow : Follower) :
    Location → List Step → Except Fault Found
  | cur, [] => .ok ⟨cur, top.at? cur⟩
  | cur, step :: rest =>
    match top.at? cur with
    | some (.dir entries) =>
      match step with
      | .here => walkSteps top followLast follow cur rest
      | .up => walkSteps top followLast follow cur.dropLast rest
      | .name n =>
        match Entries.get? n entries with
        | none => if rest.isEmpty then .ok ⟨cur ++ [n], none⟩ else .error .notFound
        | some (.link target) =>
          if rest.isEmpty && !followLast then .ok ⟨cur ++ [n], some (.link target)⟩
          else follow cur target rest
        | some _ => walkSteps top followLast follow (cur ++ [n]) rest
    | some _ => .error .notDirectory
    | none => .error .notFound

/-- Goes steps from a location over at most some number of links. -/
def walk (top : Node) (followLast : Bool) : Nat → Location → List Step → Except Fault Found
  | 0, _, _ => .error .tooManyLinks
  | links + 1, cur, steps =>
    walkSteps top followLast (fun dir target rest =>
      if target.isEmpty then .error .notFound
      else
        let (isAbsolute, first) := stepsOf target
        walk top followLast links (if isAbsolute then [] else dir) (first ++ rest)) cur steps

/-- The number of links that may be on a way. -/
def maxLinks : Nat := 40

end Disk

namespace Disk

/-- Where a path leads. -/
def resolve (d : Disk) (followLast : Bool) (p : Path) : Except Disk.Fault Disk.Found :=
  if p.text.isEmpty then .error .notFound
  else
    let (isAbsolute, steps) := Disk.stepsOf p.text
    Disk.walk d.top followLast (Disk.maxLinks + 1) (if isAbsolute then [] else d.here) steps

/-- The node that a path leads to. -/
def stat (d : Disk) (p : Path) : Except Disk.Fault (Disk.Location × Disk.Node) := do
  let found ← d.resolve true p
  match found.node with
  | some n => return (found.location, n)
  | none => .error .notFound

/-- The node that a path leads to, which may be a link. -/
def linkStat (d : Disk) (p : Path) : Except Disk.Fault (Disk.Location × Disk.Node) := do
  let found ← d.resolve false p
  match found.node with
  | some n => return (found.location, n)
  | none => .error .notFound

/-- Whether a path leads to a file. -/
def isFile (d : Disk) (p : Path) : Bool := (d.stat p).toOption.any (·.2.isFile)

/-- Whether a path leads to a directory. -/
def isDir (d : Disk) (p : Path) : Bool := (d.stat p).toOption.any (·.2.isDir)

/-- Whether a path leads to anything. -/
def exists? (d : Disk) (p : Path) : Bool := (d.stat p).toOption.isSome

/-- The bytes of the file that a path leads to. -/
def readBytes (d : Disk) (p : Path) : Except Disk.Fault ByteArray := do
  match ← d.stat p with
  | (_, .file bytes _) => return bytes
  | _ => .error .isDirectory

/-- The text of the file that a path leads to. -/
def readText (d : Disk) (p : Path) : Except Disk.Fault String := do
  match String.fromUTF8? (← d.readBytes p) with
  | some text => return text
  | none => .error .notText

end Disk

end Scaffold
