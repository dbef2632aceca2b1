import Scaffold.Proofs.Project.Apart

/-!
# Applying a template twice

Filling renders what it has rendered, so it is not to be done twice. But a template that was
copied and filled can be copied and filled once more, if each file that is filled is one that is
copied : the copy rules put back what the fill rules have read, in the same order and over the
same files, so that the disk is the one that was there between copying and filling
(`Template.Copied.again`). From there filling does what it has done before
(`Template.apply_again`).
-/

namespace Scaffold

open Scaffold.Path Disk

/-- Whether a copy rule writes the file of a fill rule. -/
def CopyRule.Covers (t : Template) (d : Disk) (r : FillRule) (c : CopyRule) : Prop :=
  ∃ files source, (t.made d).stat t.filesDir = .ok (files, source) ∧
    c.Writes source.layout (namesOf r.file)

variable {t : Template} {d d' : Disk} {files project : Location} {source : Node}
  {answers : AnswerMap} {env : Entries String}

/-- The directory of a project that is there is not made again. -/
theorem Template.makeDirs_again (hd : ((Action.makeDirs t.project).perform d).1 = .ok ())
    (hg : (t.made d).top.layout.Grows d'.top.layout) (hhere : d'.here = (t.made d).here) :
    (Action.makeDirs t.project).perform d' = (.ok (), d') := by
  have hmade : (Action.makeDirs t.project).perform d = (.ok (), t.made d) := Prod.ext hd rfl
  exact Action.makeDirs_again hmade hg hhere

/-- Copying to a project that is there is a pass over the rules. -/
theorem Template.copy_again (hd : ((Action.makeDirs t.project).perform d).1 = .ok ())
    (hg : (t.made d).top.layout.Grows d'.top.layout) (hhere : d'.here = (t.made d).here) :
    t.copy answers env d' = copyRules t answers env t.manifest.copy {} d' := by
  have hagain := t.makeDirs_again hd hg hhere
  have hmade : t.made d' = d' := congrArg Prod.snd hagain
  rw [t.copy_eq (congrArg Prod.fst hagain), hmade]

/-- What a pass over fill rules changes of a site. -/
structure Filled (t : Template) (answers : AnswerMap) (env : Entries String)
    (files project : Location) (source : Node) (old d : Disk) : Prop where
  site : Site t files project source d
  here : d.here = old.here
  grows : old.top.layout.Grows d.top.layout
  proper : d.top.Proper
  same : ∀ l, (∀ r ∈ t.manifest.fill, r.isOpen t answers env = true →
    l ≠ project ++ namesOf r.file) → d.top.layout l = old.top.layout l

theorem Disk.Site.filled (h : Site t files project source d) (hd : d.top.Proper) :
    Filled t answers env files project source d (t.fill answers env d).2 := by
  refine fillRules_invariant (P := Filled t answers env files project source d) []
    (fun r hr hopen d₁ d₂ hrun h₁ => ?_) ⟨h, rfl, .refl _, hd, fun _ _ => rfl⟩
  obtain ⟨hsite, hg, hhere, hproper, _, _, _, -, hlay⟩ := h₁.site.fill hrun
  refine ⟨hsite, hhere.trans h₁.here, h₁.grows.trans hg, hproper h₁.proper, fun l hl => ?_⟩
  rw [hlay, Layout.set, if_neg (hl r hr hopen), h₁.same l hl]

/-! ## Copying again -/

/-- The rules put back what fill rules have changed, when each of the files is one that they
write. -/
theorem Template.Copied.again {made filled : Disk}
    (h : t.Copied answers env files project source made d)
    (hfilled : Filled t answers env files project source d filled)
    (hdecided : ∀ r ∈ t.manifest.copy, r.Decided t answers env)
    (hwritten : ∀ r ∈ t.manifest.fill, r.isOpen t answers env = true →
      ∃ c ∈ t.manifest.copy.filter (·.applies t answers env),
        c.Writes source.layout (namesOf r.file)) :
    copyRules t answers env t.manifest.copy {} filled =
      ({ report :=
          { applied := t.manifest.copy.filter (·.applies t answers env)
            skipped := t.manifest.copy.filter (·.isShut t answers env) } }, d) := by
  obtain ⟨again, hrun⟩ := copyRules_of_hasRun {} hfilled.site hdecided fun r hr hopen =>
    (h.hasRun r hr hopen).of_grows hfilled.grows hfilled.here
  simp only [CopyReport.append, List.nil_append] at hrun
  have hagain : t.Copied answers env files project source filled
      (copyRules t answers env t.manifest.copy {} filled).2 :=
    (hfilled.site.copied (congrArg (·.1.result) hrun) rfl hfilled.proper).1
  rw [hrun] at hagain
  have hlay : again.top.layout = d.top.layout := by
    funext l
    by_cases hbelow : project <+: l
    · obtain ⟨s, rfl⟩ := hbelow
      have hnew := congrFun hagain.below s
      have hold := congrFun h.below s
      rw [Layout.below] at hnew hold
      rw [hnew, hold]
      by_cases hw : ∃ c ∈ t.manifest.copy.filter (·.applies t answers env),
          c.Writes source.layout s
      · obtain ⟨i, hi, -⟩ := overlay_of_written hw
        rw [hi, hi]
      · -- Nothing was filled where the rules write nothing.
        have hno : ∀ c ∈ t.manifest.copy.filter (·.applies t answers env),
            ¬c.Writes source.layout s := fun c hc hcw => hw ⟨c, hc, hcw⟩
        rw [overlay_of_untouched hno] at hold
        rw [overlay_of_untouched hno, overlay_of_untouched hno, ← hold]
        refine hfilled.same _ fun r hr hopen heq => hw ?_
        rw [List.append_cancel_left_eq] at heq
        exact heq ▸ hwritten r hr hopen
    · by_cases habove : l <+: project
      · rw [Node.layout_above hagain.site.leads.layout habove,
          Node.layout_above h.site.leads.layout habove]
      · rw [hagain.beside l hbelow habove]
        exact hfilled.same l fun r _ _ heq => hbelow (heq ▸ List.prefix_append ..)
  have hsame : again = d := by
    obtain ⟨top, here⟩ := again
    obtain ⟨top', here'⟩ := d
    obtain rfl : top = top' := hagain.proper.ext h.proper hlay
    obtain rfl : here = here' := hagain.here.trans hfilled.here
    rfl
  rw [hrun, hsame]

/-! ## A template -/

theorem CopyPass.eq_of_result {p : CopyPass} {report : CopyReport} (h : p.result = .ok report) :
    p = { report } := by
  obtain ⟨report', stop⟩ := p
  cases stop with
  | some f => cases h
  | none =>
    obtain rfl := Except.ok.inj h
    rfl

/-- A rule that has no files to copy from fails and does nothing. -/
theorem CopyRule.run_of_no_files (r : CopyRule) {f : Fault}
    (h : d.stat t.filesDir = .error f) : ∃ f', (r.run t).perform d = (.error f', d) := by
  rw [CopyRule.perform_run]
  cases hpaths : r.paths t with
  | error f => exact ⟨f, rfl⟩
  | ok paths =>
    obtain ⟨p, q⟩ := paths
    obtain ⟨rfl, rfl⟩ := CopyRule.paths_eq_ok hpaths
    dsimp only
    rw [Action.perform_copyTree]
    split
    · exact ⟨_, rfl⟩
    · rename_i hstat
      obtain ⟨l, n, hn⟩ := exists_stat_of_joinAll
        (text_join_ne t.directory (c := .name "template") (show IsName "template" by decide))
        (fun _ => isName_of_mem_namesOf) hstat
      rw [Template.filesDir] at h
      cases hn.symm.trans h

/-- Rules that have no files to copy from do nothing. -/
theorem copyRules_of_no_files (rules : List CopyRule) (report : CopyReport) {f : Fault}
    (h : d.stat t.filesDir = .error f) : (copyRules t answers env rules report d).2 = d := by
  refine copyRules_invariant answers env (P := fun d' => d' = d) (fun r d' hd' => ?_) rules report
    rfl
  obtain ⟨f', hf⟩ := r.run_of_no_files h
  rw [hd', hf]

/-- When a template was copied without a failure and then filled, and each file that was filled is
one that a rule has copied, then doing both once more changes nothing : copying gives the same
report and brings back what there was before filling, and filling fills the same files and leaves
the disk that there was after it. -/
theorem Template.apply_again {report : CopyReport} {filled : List FillRule} (h : t.Apart d)
    (hreport : (t.copy answers env d).1.result = .ok report) (hclean : report.isClean = true)
    (hfill : (t.fill answers env (t.copy answers env d).2).1 = .ok filled)
    (hwritten : ∀ r ∈ filled, ∃ c ∈ report.applied, c.Covers t d r) :
    let done := (t.fill answers env (t.copy answers env d).2).2
    t.copy answers env done = t.copy answers env d ∧
      t.fill answers env (t.copy answers env done).2 = (.ok filled, done) := by
  intro done
  obtain ⟨hd, hdecided⟩ := decided_of_result_eq_ok hreport
  have hm := Action.makes_makeDirs t.project d
  have hfilled : filled = t.manifest.fill.filter (·.isOpen t answers env) :=
    filled_of_fillRules hfill
  have hsame : t.copy answers env done = t.copy answers env d := by
    cases hfiles : (t.made d).stat t.filesDir with
    | ok found =>
      obtain ⟨files, source⟩ := found
      obtain ⟨project, -, hmade, hcopied, happlied⟩ := h.copied hreport hclean hfiles
      have hpass : Filled t answers env files project source (t.copy answers env d).2 done :=
        hcopied.site.filled hcopied.proper
      have hagain := hcopied.again hpass hdecided fun r hr hopen => by
        obtain ⟨c, hc, files', source', hfiles', hcovers⟩ :=
          hwritten r (hfilled ▸ List.mem_filter.mpr ⟨hr, hopen⟩)
        obtain ⟨-, rfl⟩ := Prod.mk.inj (Except.ok.inj (hfiles.symm.trans hfiles'))
        exact ⟨c, happlied ▸ hc, hcovers⟩
      rw [t.copy_again hd (hcopied.grows.trans hpass.grows) (hpass.here.trans hcopied.here), hagain]
      -- The report of the first pass has the same three lists.
      have hskipped := (interleaved_of_result_eq_ok hreport).2
      have hfailed := List.isEmpty_iff.mp hclean
      refine Prod.ext ?_ rfl
      rw [CopyPass.eq_of_result hreport]
      obtain ⟨applied, skipped, failed⟩ := report
      obtain rfl : applied = _ := happlied
      obtain rfl : skipped = _ := hskipped
      obtain rfl : failed = _ := hfailed
      rfl
    | error f =>
      have hcopied : (t.copy answers env d).2 = t.made d := by
        rw [t.copy_eq hd, copyRules_of_no_files _ _ hfiles]
      have hnone : filled = [] := List.eq_nil_iff_forall_not_mem.mpr fun r hr => by
        obtain ⟨c, -, files, source, hstat, -⟩ := hwritten r hr
        cases hfiles.symm.trans hstat
      have hdone : done = t.made d :=
        fillRules_invariant (P := fun d' => d' = t.made d) [] (fun r hr hopen => by
          have hmem := hfilled ▸ List.mem_filter.mpr ⟨hr, hopen⟩
          rw [hnone] at hmem
          cases hmem) hcopied
      rw [hdone, t.copy_again hd (.refl _) rfl, t.copy_eq hd]
  refine ⟨hsame, ?_⟩
  rw [hsame]
  exact Prod.ext hfill rfl

/-- A file is copied and filled, and then copied and filled once more. -/
theorem apply_again_oneFile :
    let d := oneFileDisk "\x7b\x7b 1 + 1 \x7d\x7d"
    let done := (oneFileTemplate.fill [] [] (oneFileTemplate.copy [] [] d).2).2
    done.top.layout ["app", "a.txt"] = some (.file "2".toUTF8 false) ∧
      (oneFileTemplate.fill [] [] (oneFileTemplate.copy [] [] done).2).2 = done := by
  intro d done
  refine ⟨by decide +kernel, ?_⟩
  have hclean : ((oneFileTemplate.copy [] [] d).1.result.toOption.map fun report =>
      (report.applied, report.failed)) = some ([{ source := "a.txt" }], []) := by decide +kernel
  have hfills : (oneFileTemplate.fill [] [] (oneFileTemplate.copy [] [] d).2).1.toOption.isSome := by
    decide +kernel
  cases hreport : (oneFileTemplate.copy [] [] d).1.result with
  | error f =>
    rw [hreport] at hclean
    cases hclean
  | ok report =>
    rw [hreport] at hclean
    obtain ⟨happlied, hfailed⟩ := Prod.mk.inj (Option.some.inj hclean)
    cases hfill : (oneFileTemplate.fill [] [] (oneFileTemplate.copy [] [] d).2).1 with
    | error f =>
      rw [hfill] at hfills
      cases hfills
    | ok filled =>
      have hall := filled_of_fillRules hfill
      obtain ⟨-, hagain⟩ := Template.apply_again (apart_oneFile _) hreport
        (List.isEmpty_iff.mpr hfailed) hfill fun r hr => by
          rw [hall, List.nil_append] at hr
          obtain rfl := List.mem_singleton.mp (List.mem_of_mem_filter hr)
          refine ⟨{ source := "a.txt" }, by rw [happlied]; exact List.mem_singleton_self _, _, _,
            stat_oneFile _, Or.inl ⟨[], rfl, ?_⟩⟩
          have hnames : namesOf "a.txt" = ["a.txt"] := by decide +kernel
          rw [List.append_nil, hnames]
          exact Option.some_ne_none _
      have hdone := congrArg Prod.snd hagain
      exact hdone

end Scaffold
