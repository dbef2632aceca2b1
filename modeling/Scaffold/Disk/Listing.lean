import Scaffold.Disk.Action

/-!
# Trees as lists

A tree is listed as the paths below its top with what is there; directories stand before what
they hold. Planting a list makes such a tree inside of another one.
-/

namespace Scaffold.Disk

/-- What stands at a path of a listing. -/
inductive Item where
  | file (bytes : ByteArray) (executable : Bool)
  | dir
  | link (target : String)

mutual

/-- The items below a node, each with the names that lead to it. -/
def Node.listing : Node → List (List String × Item)
  | .dir entries => listingOf entries
  | _ => []

def listingOf : List (String × Node) → List (List String × Item)
  | [] => []
  | (name, n) :: rest =>
    let item := match n with
      | .file bytes executable => .file bytes executable
      | .dir _ => .dir
      | .link target => .link target
    ([name], item) :: (Node.listing n).map (fun e => (name :: e.1, e.2)) ++ listingOf rest

end

namespace Action

/-- Makes a link. -/
def makeLink (p : Path) (target : String) : Disk.Action Unit := do
  let found ← look (·.resolve false p)
  match found.node with
  | some _ => throw .alreadyExists
  | none => store found.location (some (.link target))

/-- Makes a file executable. -/
def makeExecutable (p : Path) : Disk.Action Unit := do
  match ← look (·.stat p) with
  | (location, .file bytes _) => store location (some (.file bytes true))
  | _ => return

/-- Makes what stands at a path of a listing, and the directories above it. -/
def plantItem (base : Path) (path : String) (item : Item) : Disk.Action Unit := do
  let p := base.join path
  if let some above := p.parent? then makeDirs above
  match item with
  | .file bytes executable =>
    writeBytes p bytes
    if executable then makeExecutable p
  | .dir => makeDirs p
  | .link target => makeLink p target

/-- Makes the tree of a listing below a path. -/
def plant (base : Path) (items : List (String × Item)) : Disk.Action Unit := do
  makeDirs base
  for (path, item) in items do
    plantItem base path item

end Action

end Scaffold.Disk
