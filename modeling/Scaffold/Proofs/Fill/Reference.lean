import Scaffold.Proofs.Disk.Lookup
import Scaffold.Proofs.Disk.Listing
import Scaffold.Proofs.Disk.Shape
import Scaffold.Proofs.Fill.Pass

/-!
# What filling makes of a project

The fill rules are read as rules on the files of a project, which are a map from names to what
is there (`fillFiles`). A rule whose gate is open replaces the content of one file, and the first
one that fails ends the pass. On a project without links, filling is just that
(`Template.fill_reference`) : paths that spell the same names in different ways are one file,
and all faults of reading can be told from the map.
-/

namespace Scaffold

open Scaffold.Path Disk

/-- The files of a project after one of them is filled. -/
def FillRule.fillIn (c : Context) (r : FillRule) (files : Layout) : Except Failure Layout :=
  if escapes r.file then .error (.fill r.file .outsideProject)
  else
    match files (namesOf r.file) with
    | none => .error (.fillIo r.file (files.missing (namesOf r.file)))
    | some (.file bytes executable) =>
      match String.fromUTF8? bytes with
      | none => .error (.fillIo r.file .notText)
      | some source =>
        match FillRule.render c source with
        | .error f => .error (.fill r.file (.stencil f))
        | .ok text => .ok (files.set (namesOf r.file) (.file text.toUTF8 executable))
    | some _ => .error (.fillIo r.file .isDirectory)

/-- What fill rules make of the files of a project, one after the other. -/
def fillFiles (answers : AnswerMap) (info : TemplateInfo) (env : Entries String) :
    List FillRule → Layout → Except Failure (List FillRule) × Layout
  | [], files => (.ok [], files)
  | r :: rest, files =>
    let c : Context := { answers, template := info, vars := r.vars, env }
    match Gate.evaluate c r.gate with
    | .error f => (.error (.gate f), files)
    | .ok false => fillFiles answers info env rest files
    | .ok true =>
      match r.fillIn c files with
      | .error f => (.error f, files)
      | .ok files' =>
        let (result, final) := fillFiles answers info env rest files'
        (result.map (r :: ·), final)

/-- Whether the path of a project leads to a location without links below. -/
structure Settled (t : Template) (place : Location) (d : Disk) : Prop where
  stat : ∃ n, d.stat t.project = .ok (place, n)
  free : ∀ r target, d.top.layout (place ++ r) ≠ some (.link target)

variable {t : Template} {answers : AnswerMap} {env : Entries String} {place : Location}
  {d d' : Disk} {r : FillRule} {c : Context}

theorem below_set (root names : Location) (item : Item) (layout : Layout) :
    (layout.set (root ++ names) item).below root = (layout.below root).set names item := by
  funext l
  simp only [Layout.below, Layout.set, List.append_cancel_left_eq]

/-- A rule that succeeds has replaced the content of a file, which stands under its names. -/
theorem Settled.run (h : Settled t place d) (hd : r.run t c d = .ok d') :
    Settled t place d' ∧ ∃ bytes executable content,
      d.top.layout (place ++ namesOf r.file) = some (.file bytes executable) ∧
      d'.top.layout = d.top.layout.set (place ++ namesOf r.file) (.file content executable) := by
  obtain ⟨n, hproject⟩ := h.stat
  obtain ⟨l, bytes, executable, content, hstat, rfl⟩ := FillRule.run_eq_ok hd
  obtain rfl : l = place ++ namesOf r.file := by
    refine resolve_joinAll (fun found hfound => ?_) h.free (fun _ => isName_of_mem_namesOf)
      (stat_eq_ok.mp hstat)
    rw [follow_of_stat hproject] at hfound
    rw [← Except.ok.inj hfound]
  obtain ⟨hlay, hg, -⟩ := stored_of_resolve (stat_eq_ok.mp hstat) rfl content executable
  refine ⟨⟨?_, fun s target hl => ?_⟩, bytes, executable, content,
    Node.layout_eq_file.mpr (at?_of_stat hstat), hlay⟩
  · refine exists_stat_of_grows ?_ ?_ hproject
    · exact hg
    · rfl
  · rw [hlay, Layout.set] at hl
    split at hl
    · cases hl
    · exact h.free s target hl

/-- One rule, on the disk and on the files of the project. -/
theorem Settled.run_eq (h : Settled t place d) (c : Context) (r : FillRule) :
    (r.run t c d).map (·.top.layout.below place) = r.fillIn c (d.top.layout.below place) := by
  obtain ⟨n, hproject⟩ := h.stat
  have hnames : ∀ n ∈ namesOf r.file, IsName n := fun _ => isName_of_mem_namesOf
  have hlook : (d.top.layout.below place) (namesOf r.file) =
      (d.top.at? (place ++ namesOf r.file)).map Node.item := rfl
  rw [FillRule.run_eq, FillRule.fillIn, containedJoin_eq]
  cases escapes r.file with
  | true => rfl
  | false =>
    simp only [Bool.false_eq_true, if_false]
    rw [stat_joinAll_eq hproject h.free hnames, hlook]
    cases hn : d.top.at? (place ++ namesOf r.file) with
    | none => rfl
    | some m =>
      cases m with
      | dir entries => rfl
      | link target => rfl
      | file bytes executable =>
        simp only [Option.map_some, Node.item]
        cases String.fromUTF8? bytes with
        | none => rfl
        | some source =>
          dsimp only
          cases FillRule.render c source with
          | error f => rfl
          | ok text =>
            dsimp only [Except.map]
            rw [Node.layout_put_file hn, below_set]

variable (answers env) in
/-- A pass over rules, on the disk and on the files of the project. -/
theorem Settled.fillRules_eq : ∀ (rules filled : List FillRule) {d : Disk}, Settled t place d →
    let pass := fillRules t answers env rules filled d
    let files := fillFiles answers t.manifest.info env rules (d.top.layout.below place)
    pass.1 = files.1.map (filled ++ ·) ∧ pass.2.top.layout.below place = files.2 ∧
      Settled t place pass.2
  | [], filled, d, h => by
    refine ⟨?_, rfl, h⟩
    change Except.ok filled = .ok (filled ++ [])
    rw [List.append_nil]
  | r :: rest, filled, d, h => by
    have hstep := h.run_eq (r.context t answers env) r
    have hcontext : r.context t answers env =
      { answers, template := t.manifest.info, vars := r.vars, env } := rfl
    simp only [fillRules, fillFiles, ← hcontext]
    cases Gate.evaluate (r.context t answers env) r.gate with
    | error f => exact ⟨rfl, rfl, h⟩
    | ok opened =>
      cases opened with
      | false => exact Settled.fillRules_eq rest filled h
      | true =>
        dsimp only
        cases hrun : r.run t (r.context t answers env) d with
        | error f =>
          rw [hrun] at hstep
          rw [← hstep]
          exact ⟨rfl, rfl, h⟩
        | ok d' =>
          rw [hrun] at hstep
          rw [← hstep]
          obtain ⟨hresult, hfiles, hsettled⟩ :=
            Settled.fillRules_eq rest (filled ++ [r]) (h.run hrun).1
          refine ⟨?_, hfiles, hsettled⟩
          rw [hresult]
          dsimp only [Except.map]
          cases (fillFiles answers t.manifest.info env rest (d'.top.layout.below place)).1 with
          | error f => rfl
          | ok all => simp

/-! ## What stays as it is -/

/-- A file that no rule with an open gate names stays as it is. -/
theorem Settled.layout_fillRules (h : Settled t place d) {rules : List FillRule}
    (filled : List FillRule) {l : Location}
    (hl : ∀ r ∈ rules, r.isOpen t answers env = true → l ≠ place ++ namesOf r.file) :
    (fillRules t answers env rules filled d).2.top.layout l = d.top.layout l := by
  refine (fillRules_invariant
    (P := fun d' => Settled t place d' ∧ d'.top.layout l = d.top.layout l) filled
    (fun r hr hopen d₁ d₂ hrun ⟨h₁, hsame⟩ => ?_) ⟨h, rfl⟩).2
  obtain ⟨h₂, bytes, executable, content, -, hlay⟩ := h₁.run hrun
  refine ⟨h₂, ?_⟩
  rw [hlay, Layout.set, if_neg (hl r hr hopen), hsame]

/-! ## A template -/

/-- A project with two files. -/
def fillDisk : Disk :=
  { top := .dir [("app", .dir [("a.txt", .file "\x7b\x7b Vars.x \x7d\x7d".toUTF8 true),
      ("b.txt", .file "b".toUTF8 false)])] }

/-- A template that fills one file twice, under two spellings, and then leaves the project. -/
def fillTemplate : Template where
  name := "tpl"
  directory := ⟨"/tpl"⟩
  project := ⟨"/app"⟩
  manifest :=
    { fill :=
        [{ file := ".//a.txt", vars := [("x", .str "\x7b\x7b Vars.x \x7d\x7d!")] },
          { file := "a.txt", vars := [("x", .str "y")], needs := ["b.txt"] },
          { file := "b.txt", gate := "false" }, { file := "../b.txt" }, { file := "b.txt" }] }

end Scaffold
