import Scaffold.Disk.Resolve
import Scaffold.Failure

/-!
# Templates

A template is a directory with a manifest and the files to copy, which is about to be applied
to the directory of a project.
-/

namespace Scaffold

/-- Reads the manifest of a template. -/
def Manifest.load (d : Disk) (directory : Path) (fileName : String) : Except Failure Manifest := do
  let path := directory.join fileName
  if !d.isFile path then throw (.manifestNotFound path)
  let text ← (d.readText path).mapError (.manifestUnreadable path)
  (Manifest.ofText text).mapError (.manifestRefused path)

/-- A template that can be applied. -/
structure Template where
  /-- What the template was asked for as. -/
  name : String
  /-- The directory with the manifest. -/
  directory : Path
  /-- The directory of the project. -/
  project : Path
  manifest : Manifest
deriving Inhabited

namespace Template

/-- Reads a template. -/
def load (d : Disk) (name : String) (directory project : Path) (fileName : String) :
    Except Failure Template := do
  return { name, directory, project, manifest := ← Manifest.load d directory fileName }

/-- The directory that copy rules start from. -/
def filesDir (t : Template) : Path := t.directory.join "template"

end Template

end Scaffold
