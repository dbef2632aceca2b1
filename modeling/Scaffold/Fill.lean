import Scaffold.Disk.Action
import Scaffold.Template

/-!
# Filling files of a project

The fill rules of a manifest are run in order. Each renders one file of the project in place,
and the first one that fails ends the pass; what the rules before it wrote stays.
-/

namespace Scaffold

/-- A rule needs a file that no rule before it names. -/
structure UnmetNeed where
  file : String
  need : String
deriving DecidableEq, Repr

/-- The warning about an unmet need. -/
def UnmetNeed.message (u : UnmetNeed) : String :=
  s!"fill rule needs a file that is not filled before it file={u.file} need={u.need}"

namespace FillRule

/-- What a rule can see. -/
def context (t : Template) (answers : AnswerMap) (env : Entries String) (r : FillRule) : Context :=
  { answers, template := t.manifest.info, vars := r.vars, env }

/-- What a file becomes. -/
def render (c : Context) (source : String) : Except Stencil.Fault String := do
  (← Stencil.Tree.ofText source.toList).render false c.root

/-- Renders the file of a rule in place. -/
def run (t : Template) (c : Context) (r : FillRule) (d : Disk) : Except Failure Disk := do
  match t.project.containedJoin r.file with
  | none => throw (.fill r.file .outsideProject)
  | some path =>
    let source ← (d.readText path).mapError (.fillIo r.file)
    let text ← (render c source).mapError fun f => .fill r.file (.stencil f)
    match (Disk.Action.writeText path text).perform d with
    | (.ok _, d) => return d
    | (.error f, _) => throw (.fillIo r.file f)

end FillRule

/-- Runs fill rules in order, after some that were run. -/
def fillRules (t : Template) (answers : AnswerMap) (env : Entries String) :
    List FillRule → List FillRule → Disk → Except Failure (List FillRule) × Disk
  | [], filled, d => (.ok filled, d)
  | r :: rest, filled, d =>
    let c := r.context t answers env
    match Gate.evaluate c r.gate with
    | .error f => (.error (.gate f), d)
    | .ok false => fillRules t answers env rest filled d
    | .ok true =>
      match r.run t c d with
      | .ok d => fillRules t answers env rest (filled ++ [r]) d
      | .error f => (.error f, d)

/-- Runs the fill rules of a template on the files of its project. -/
def Template.fill (t : Template) (answers : AnswerMap) (env : Entries String) (d : Disk) :
    Except Failure (List FillRule) × Disk :=
  fillRules t answers env t.manifest.fill [] d

/-- The needs of rules that no rule before them meets. -/
def unmetNeeds : List String → List FillRule → List UnmetNeed
  | _, [] => []
  | seen, r :: rest =>
    ((r.needs.filter (!seen.contains ·)).map fun need => ⟨r.file, need⟩) ++
      unmetNeeds (r.file :: seen) rest

/-- The rules that a pass over fill rules comes to: all of them, or those up to the one that
it ended with. -/
def reachedRules (t : Template) (answers : AnswerMap) (env : Entries String) :
    List FillRule → Disk → List FillRule
  | [], _ => []
  | r :: rest, d =>
    let c := r.context t answers env
    match Gate.evaluate c r.gate with
    | .error _ => [r]
    | .ok false => r :: reachedRules t answers env rest d
    | .ok true =>
      match r.run t c d with
      | .ok d => r :: reachedRules t answers env rest d
      | .error _ => [r]

/-- The needs that a pass over the fill rules of a template warns of. -/
def Template.fillWarnings (t : Template) (answers : AnswerMap) (env : Entries String) (d : Disk) :
    List UnmetNeed :=
  unmetNeeds [] (reachedRules t answers env t.manifest.fill d)

end Scaffold
