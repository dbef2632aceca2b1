import Scaffold.Checkout
import Scaffold.Command
import Scaffold.Copy
import Scaffold.Fill
import Scaffold.Interview
import Scaffold.Product
import Scaffold.Project

/-!
# Runs

A run makes a new project: it refuses a directory inside of another project, finds the
template and fetches it if it is not local, reads its manifest, asks its questions, copies its
files and fills them. The first step that fails ends the run; nothing is written for the
project before the questions are answered.
-/

namespace Scaffold

/-- Why a run failed: the failure of a step, with what the step was for where that is not
plain. -/
inductive RunFailure where
  | step (cause : Failure)
  | loading (template : String) (cause : Failure)
  | copying (cause : Failure)
  | filling (cause : Failure)
  | cancelled
  /-- The template can neither be fetched nor is it in the cache. -/
  | unavailable
deriving DecidableEq, Repr

namespace RunFailure

/-- What a step was for, or what there is to say where no step failed. -/
def context? : RunFailure → Option String
  | step _ => none
  | loading template _ => some s!"Failed to load template '{template}'"
  | copying _ => some "Failed to copy template files"
  | filling _ => some "Failed to fill template files"
  | cancelled => some Failure.cancelled.message
  | unavailable => some "The remote template provided is not available."

/-- The failure of a step. -/
def cause? : RunFailure → Option Failure
  | step cause | loading _ cause | copying cause | filling cause => some cause
  | cancelled | unavailable => none

/-- The sentence for a failure: the outermost one. -/
def message (f : RunFailure) : String := f.context?.getD (f.cause?.elim "" (·.message))

/-- The number of links from a failure to its first cause. -/
def depth (f : RunFailure) : Nat :=
  (if f.context?.isSome then 1 else 0) + f.cause?.elim 0 (·.depth)

end RunFailure

/-- Whoever is asked in a run. Answering may change the disk, which is handed over with the
first question and taken back after the last one. -/
structure Party (σ : Type) where
  respondent : FiniteRespondent σ
  start : Disk → σ
  disk : σ → Disk

/-- A run that may end at any step. -/
abbrev Run (α : Type) := ExceptT RunFailure (StateM Depot) α

namespace Run

variable {σ : Type}

/-- Performs a run; the depot is what it is after the last step. -/
def perform {α : Type} (r : Run α) (d : Depot) : Except RunFailure α × Depot :=
  StateT.run (ExceptT.run r) d

/-- The result of a step, or the end of the run. -/
def orEnd {α : Type} (toFailure : Failure → RunFailure) (r : Except Failure α) : Run α :=
  ExceptT.mk (return r.mapError toFailure)

/-- Does something that changes the disk. -/
def onDisk {α : Type} (f : Disk → α × Disk) : Run α :=
  modifyGet fun d =>
    let (a, disk) := f d.disk
    (a, { d with disk })

/-- Fetches a template that is not local. A checkout is used as it is if nothing can be
fetched. -/
def fetch (c : CheckoutCache) (url : String) : Run Path := do
  let d ← get
  if d.canFetch url then
    let (r, d) := c.fetch url d
    set d
    return (← orEnd .step r.result).path
  else if c.isCached url d.disk then return c.path url
  else throw .unavailable

/-- The directory of a template. -/
def findTemplate (p : Product) (env : Entries String) (identifier : String) : Run Path := do
  let paths ← orEnd .step (TemplatePaths.of p env)
  let resolver ← orEnd .step (p.resolver env)
  match TemplateSource.locate (← get).disk paths.localRoot resolver p.manifestFile identifier with
  | .here directory => return directory
  | .remote url => fetch ⟨paths.cacheRoot⟩ url

/-- Asks the questions of a template. -/
def ask (party : Party σ) (env : Entries String) (t : Template) : Run AnswerMap := do
  let result ← onDisk fun disk =>
    let (result, _, s) := Interview.ask party.respondent t.manifest.prompt t.manifest.info env {}
      (party.start disk)
    (result, party.disk s)
  orEnd (fun f => if f = .cancelled then .cancelled else .step f) result

/-- Copies and fills the files of a template. -/
def write (env : Entries String) (t : Template) (answers : AnswerMap) : Run Unit := do
  let _ ← orEnd .copying (← onDisk fun disk =>
    let (pass, disk) := t.copy answers env disk
    (pass.result, disk))
  let _ ← orEnd .filling (← onDisk (t.fill answers env))

/-- Makes a new project. -/
def newProject (p : Product) (env : Entries String) (party : Party σ) (args : NewProject) :
    Run Unit := do
  let disk := (← get).disk
  let project := ProjectDir.ofArgument disk p.projectFile p.manifestFile ⟨args.directory⟩
  orEnd .step (project.guard disk)
  let directory ← findTemplate p env args.template
  let t ← orEnd (.loading args.template)
    (Template.load (← get).disk args.template directory project.path p.manifestFile)
  write env t (← ask party env t)

end Run

end Scaffold
