import Scaffold.Disk.Fault
import Scaffold.Manifest
import Scaffold.Path

/-!
# Failures

Why a run ends without a project, or a rule without its files: one cause for each step. The
sentence for a failure names what the step was about.
-/

namespace Scaffold

/-- Why a fill rule cannot be applied to a file that was read. -/
inductive FillFault where
  | outsideProject
  | stencil (cause : Stencil.Fault)
deriving DecidableEq, Repr

/-- The words for a fault. -/
def FillFault.message : FillFault → String
  | outsideProject => "the file is outside the project"
  | stencil cause => cause.message

/-- Why a step of a run failed. -/
inductive Failure where
  /-- A step on the checkout of a template failed. -/
  | fetch (step url : String)
  | manifestNotFound (path : Path)
  | manifestUnreadable (path : Path) (cause : Disk.Fault)
  | manifestRefused (path : Path) (cause : Manifest.Fault)
  | gate (cause : Gate.Fault)
  | fill (file : String) (cause : FillFault)
  | fillIo (file : String) (cause : Disk.Fault)
  | copy (source target : String) (cause : Disk.Fault)
  | prompt (cause : Disk.Fault)
  | cancelled
  | insideProject (path : Path)
  | settings (words : String)
  | io (cause : Disk.Fault)
deriving DecidableEq, Repr

namespace Failure

/-- The sentence for a failure. -/
def message : Failure → String
  | fetch step url => s!"{step} {url}"
  | manifestNotFound path => s!"Template manifest not found at {path.text}"
  | manifestUnreadable path cause =>
    s!"Failed to read template manifest {path.text}: {cause.message}"
  | manifestRefused path cause => s!"Invalid template manifest {path.text}: {cause.message}"
  | gate cause => cause.message
  | fill file cause => s!"Failed to render template, {file}: {cause.message}"
  | fillIo file cause => s!"Failed to fill {file}: {cause.message}"
  | copy source target cause => s!"Failed to copy /{source} to /{target}: {cause.message}"
  | prompt cause => s!"Prompt failed: {cause.message}"
  | cancelled => "Setup cancelled."
  | insideProject path =>
    s!"You cannot create a new project within a project root ({path.text})."
  | settings words => s!"Invalid configuration: {words}"
  | io cause => s!"IO error: {cause.message}"

/-- The number of links from a failure to its first cause. -/
def depth : Failure → Nat
  | fetch .. | manifestUnreadable .. | fillIo .. | copy .. | io _ => 2
  | _ => 1

end Failure

end Scaffold
