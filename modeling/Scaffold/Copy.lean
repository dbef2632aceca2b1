import Scaffold.Disk.Action
import Scaffold.Disk.Walk
import Scaffold.Failure
import Scaffold.Template

/-!
# Copying files into a project

The copy rules of a manifest are run in order. A rule whose gate is shut is skipped; one that
fails is noted, and the rules after it still run. Only a gate that cannot be decided stops
the pass.
-/

namespace Scaffold

/-- What came of each copy rule. -/
structure CopyReport where
  applied : List CopyRule := []
  skipped : List CopyRule := []
  failed : List (CopyRule × Disk.Fault) := []
deriving Inhabited

namespace CopyReport

/-- Whether no rule failed. -/
def isClean (r : CopyReport) : Bool := r.failed.isEmpty

/-- The failures of the rules that failed. -/
def failures (r : CopyReport) : List (CopyRule × Failure) :=
  r.failed.map fun (rule, cause) => (rule, .copy rule.source rule.target cause)

/-- What there is to warn of. -/
def warnings (r : CopyReport) : List String :=
  r.failed.map fun (rule, cause) =>
    s!"copy rule failed from={rule.source} into={rule.target} error={cause.message}"

end CopyReport

namespace Disk.Action

/-- Copies a file, and makes the directories above the copy. -/
def placeFile (source target : Path) : Disk.Action Unit := do
  if let some above := target.parent? then makeDirs above
  copyFile source target

/-- Copies what a walk came by. -/
def copyVisits (source target : Path) : List (Except Fault Visit) → Disk.Action Unit
  | [] => return
  | .error f :: _ => throw f
  | .ok v :: rest => do
    let below (p : Path) : Path := v.names.foldl Path.join p
    if v.isDir then makeDirs (below target) else placeFile (below source) (below target)
    copyVisits source target rest

/-- Copies a file, or a directory and everything below it. What is there already is
overwritten or kept. -/
def copyTree (source target : Path) : Disk.Action Unit := do
  let (_, n) ← look (·.stat source)
  if n.isDir then copyVisits source target (walkFrom (← get) source)
  else placeFile source target

end Disk.Action

namespace CopyRule

/-- Where a rule copies from and to. -/
def paths (t : Template) (r : CopyRule) : Except Disk.Fault (Path × Path) := do
  let source ← (t.filesDir.containedJoin r.source).elim (.error (.outsideTemplate r.source)) .ok
  let target ← (t.project.containedJoin r.destination).elim
    (.error (.outsideProject r.destination)) .ok
  return (source, target)

/-- Copies what a rule says. -/
def run (t : Template) (r : CopyRule) : Disk.Action Unit := do
  let (source, target) ← ExceptT.mk (return r.paths t)
  Disk.Action.copyTree source target

end CopyRule

/-- What came of a pass over copy rules: the report on the rules that were run, and what
stopped it, if anything did. -/
structure CopyPass where
  report : CopyReport := {}
  stop : Option Failure := none
deriving Inhabited

/-- The report of a pass that was not stopped. -/
def CopyPass.result (p : CopyPass) : Except Failure CopyReport :=
  match p.stop with
  | some f => .error f
  | none => .ok p.report

/-- Runs copy rules in order, after those in a report. -/
def copyRules (t : Template) (answers : AnswerMap) (env : Entries String) :
    List CopyRule → CopyReport → Disk → CopyPass × Disk
  | [], report, d => ({ report }, d)
  | r :: rest, report, d =>
    match Gate.passes answers t.manifest.info env r.gate with
    | .error f => ({ report, stop := some (.gate f) }, d)
    | .ok false =>
      copyRules t answers env rest { report with skipped := report.skipped ++ [r] } d
    | .ok true =>
      match (r.run t).perform d with
      | (.ok _, d) =>
        copyRules t answers env rest { report with applied := report.applied ++ [r] } d
      | (.error f, d) =>
        copyRules t answers env rest { report with failed := report.failed ++ [(r, f)] } d

/-- Makes the directory of the project and runs the copy rules of its template. -/
def Template.copy (t : Template) (answers : AnswerMap) (env : Entries String) (d : Disk) :
    CopyPass × Disk :=
  match (Disk.Action.makeDirs t.project).perform d with
  | (.error f, d) => ({ stop := some (.io f) }, d)
  | (.ok _, d) => copyRules t answers env t.manifest.copy {} d

end Scaffold
