import Scaffold.Disk.Fault
import Scaffold.Entries

/-!
# Trees of files

A disk is a tree of files, directories and symbolic links. A location is the list of names
that leads to a node without any link, so each node has exactly one.

`put` stores a node, and nothing changes that is neither above nor below it.
-/

namespace Scaffold

namespace Disk

/-- A file, a directory or a symbolic link. -/
inductive Node where
  | file (bytes : ByteArray) (executable : Bool)
  | dir (entries : List (String × Node))
  | link (target : String)
deriving Inhabited

/-- The names that lead from the top to a node. -/
abbrev Location := List String

namespace Node

/-- Whether a node is a directory. -/
def isDir : Node → Bool
  | dir _ => true
  | _ => false

/-- Whether a node is a file. -/
def isFile : Node → Bool
  | file .. => true
  | _ => false

/-- The entries of a directory. -/
def entries : Node → List (String × Node)
  | dir e => e
  | _ => []

/-- The node of a name in a directory. -/
def child? (name : String) (n : Node) : Option Node := Entries.get? name n.entries

/-- The node at a location. -/
def at? : Location → Node → Option Node
  | [], n => some n
  | name :: rest, n => (n.child? name).bind (at? rest)

/-- Stores a node at a location, or removes what is there. Nothing changes where the
directory for it is missing. -/
def put (new : Option Node) : Location → Node → Node
  | [], n => new.getD n
  | [name], dir e =>
    match new with
    | some m => dir (Entries.insert name m e)
    | none => dir (Entries.erase name e)
  | name :: rest, dir e =>
    match Entries.get? name e with
    | some c => dir (Entries.insert name (put new rest c) e)
    | none => dir e
  | _, n => n

mutual

/-- The number of directories in a tree. -/
def dirCount : Node → Nat
  | dir e => 1 + dirCountIn e
  | _ => 0

def dirCountIn : List (String × Node) → Nat
  | [] => 0
  | (_, n) :: rest => dirCount n + dirCountIn rest

end

end Node

end Disk

/-- A tree of files, and the directory that paths start from. -/
structure Disk where
  top : Disk.Node := .dir []
  here : Disk.Location := []
deriving Inhabited

end Scaffold
