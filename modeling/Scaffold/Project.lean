import Scaffold.Disk.Resolve
import Scaffold.Failure

/-!
# Directories of projects

A directory is a project if it holds a project file, and a template if it holds a manifest.
No project is made inside another one: the guard looks at a directory and all those above it.
-/

namespace Scaffold

/-- A directory in which a project is, or is about to be. -/
structure ProjectDir where
  /-- Where the directory is, without dots. -/
  path : Path
  projectFile : String
  manifestFile : String
deriving DecidableEq, Repr

namespace ProjectDir

/-- The path of the directory that paths start from. -/
def herePath (d : Disk) : Path := Path.ofStack d.here.reverse

/-- The directory that an argument names. -/
def ofArgument (d : Disk) (projectFile manifestFile : String) (argument : Path) : ProjectDir :=
  let path := if argument.isAbsolute then argument else (herePath d).join argument.text
  { path := path.normalize, projectFile, manifestFile }

/-- Whether the directory is there. -/
def isThere (p : ProjectDir) (d : Disk) : Bool := d.isDir p.path

/-- Whether the directory is a project. -/
def isProject (p : ProjectDir) (d : Disk) : Bool := d.isFile (p.path.join p.projectFile)

/-- Whether the directory is a template. -/
def isTemplate (p : ProjectDir) (d : Disk) : Bool := d.isFile (p.path.join p.manifestFile)

/-- The nearest project that the directory is in. -/
def enclosing? (p : ProjectDir) (d : Disk) : Option Path :=
  p.path.ancestors.find? fun a => d.isFile (a.join p.projectFile)

/-- Refuses a directory inside a project. -/
def guard (p : ProjectDir) (d : Disk) : Except Failure Unit :=
  match p.enclosing? d with
  | some path => .error (.insideProject path)
  | none => .ok ()

end ProjectDir

end Scaffold
