import Scaffold.Proofs.Copy.Site

/-!
# A pass over copy rules

A pass that no rule fails in applies the rules whose gates are open, in order, and each of them
puts what it copies over the project as the rules before left it (`CopyRule.overlay`). So the
project is in the end what it was, with one tree after the other over it
(`Template.layout_copy`). What the last tree has at a path stands there (`overlay_of_last`), and
where no tree has anything the project stays as it was (`overlay_of_untouched`).
-/

namespace Scaffold

open Scaffold.Path Disk

/-- Whether the gate of a rule is open. -/
def CopyRule.applies (t : Template) (answers : AnswerMap) (env : Entries String)
    (r : CopyRule) : Bool :=
  match Gate.passes answers t.manifest.info env r.gate with
  | .ok true => true
  | _ => false

/-- What a rule makes of a project : what it copies of the files is put over what is there. -/
def CopyRule.overlay (files project : Layout) (r : CopyRule) : Layout :=
  project.mount (namesOf r.destination) (files.below (namesOf r.source))

/-- Whether a rule puts something at a path, or a directory for it to stand in. -/
def CopyRule.Writes (files : Layout) (l : Location) (r : CopyRule) : Prop :=
  (∃ s, l = namesOf r.destination ++ s ∧ files (namesOf r.source ++ s) ≠ none) ∨
    (l <+: namesOf r.destination ∧ l ≠ namesOf r.destination)

theorem CopyRule.overlay_of_not_writes {files : Layout} {l : Location} {r : CopyRule}
    (h : ¬r.Writes files l) (project : Layout) :
    CopyRule.overlay files project r l = project l := by
  obtain ⟨hput, habove⟩ := not_or.mp h
  unfold CopyRule.overlay
  by_cases hl : namesOf r.destination <+: l
  · obtain ⟨s, rfl⟩ := hl
    have hnone : files.below (namesOf r.source) s = none := by
      by_contra hsome
      exact hput ⟨s, rfl, hsome⟩
    rw [Layout.mount_append, hnone, Option.none_or]
  · have hl' : ¬l <+: namesOf r.destination := fun hpre =>
      habove ⟨hpre, fun heq => hl (heq ▸ List.prefix_rfl)⟩
    rw [Layout.mount, if_neg hl, if_neg hl']

/-- What no rule writes stays as it was. -/
theorem overlay_of_untouched {files : Layout} {l : Location} :
    ∀ {rules : List CopyRule}, (∀ r ∈ rules, ¬r.Writes files l) → ∀ project : Layout,
      rules.foldl (CopyRule.overlay files) project l = project l
  | [], _, _ => rfl
  | r :: rules, h, project => by
    rw [List.foldl_cons, overlay_of_untouched fun r' hr' => h r' (List.mem_cons_of_mem r hr'),
      CopyRule.overlay_of_not_writes (h r List.mem_cons_self)]

/-- What the last rule that writes a path copies there is there in the end. -/
theorem overlay_of_last {files : Layout} {l s : Location} {before after : List CopyRule}
    {r : CopyRule} {item : Item} (hl : l = namesOf r.destination ++ s)
    (hitem : files (namesOf r.source ++ s) = some item)
    (hafter : ∀ r' ∈ after, ¬r'.Writes files l) (project : Layout) :
    (before ++ r :: after).foldl (CopyRule.overlay files) project l = some item := by
  rw [List.foldl_append, List.foldl_cons, overlay_of_untouched hafter, hl, CopyRule.overlay,
    Layout.mount_append, Layout.below, hitem, Option.some_or]

/-- What a rule writes does not depend on what was there. -/
theorem CopyRule.overlay_of_writes {files : Layout} {l : Location} {r : CopyRule}
    (h : r.Writes files l) :
    ∃ i, (∀ project : Layout, CopyRule.overlay files project r l = some i) ∧
      (i = .dir ∨ ∃ s, l = namesOf r.destination ++ s ∧ files (namesOf r.source ++ s) = some i) := by
  rcases h with ⟨s, rfl, hs⟩ | ⟨hpre, hne⟩
  · obtain ⟨i, hi⟩ := Option.ne_none_iff_exists'.mp hs
    refine ⟨i, fun project => ?_, Or.inr ⟨s, rfl, hi⟩⟩
    rw [CopyRule.overlay, Layout.mount_append, Layout.below, hi, Option.some_or]
  · refine ⟨.dir, fun project => ?_, Or.inl rfl⟩
    have hl : ¬namesOf r.destination <+: l := fun h =>
      hne (hpre.eq_of_length (Nat.le_antisymm hpre.length_le h.length_le))
    rw [CopyRule.overlay, Layout.mount, if_neg hl, if_pos hpre]

/-- What rules write is what one of them copies, or a directory for it, whatever was there. -/
theorem overlay_of_written {files : Layout} {l : Location} :
    ∀ {rules : List CopyRule}, (∃ r ∈ rules, r.Writes files l) →
      ∃ i, (∀ project : Layout, rules.foldl (CopyRule.overlay files) project l = some i) ∧
        (i = .dir ∨ ∃ r ∈ rules, ∃ s, l = namesOf r.destination ++ s ∧
          files (namesOf r.source ++ s) = some i)
  | [], h => by simp at h
  | r :: rules, h => by
    by_cases hrest : ∃ r' ∈ rules, r'.Writes files l
    · obtain ⟨i, hi, hfrom⟩ := overlay_of_written hrest
      refine ⟨i, fun project => by rw [List.foldl_cons, hi], hfrom.imp_right ?_⟩
      rintro ⟨r', hr', hs⟩
      exact ⟨r', List.mem_cons_of_mem r hr', hs⟩
    · have hr : r.Writes files l := by
        obtain ⟨r', hr', hw⟩ := h
        rcases List.mem_cons.mp hr' with rfl | hr'
        · exact hw
        · exact (hrest ⟨r', hr', hw⟩).elim
      obtain ⟨i, hi, hfrom⟩ := CopyRule.overlay_of_writes hr
      refine ⟨i, fun project => ?_, hfrom.imp_right fun hs => ⟨r, List.mem_cons_self, hs⟩⟩
      rw [List.foldl_cons, overlay_of_untouched fun r' hr' hw => hrest ⟨r', hr', hw⟩, hi]

/-! ## One rule -/

theorem CopyRule.run_eq_ok {t : Template} {r : CopyRule} {d d' : Disk}
    (h : (r.run t).perform d = (.ok (), d')) :
    (Action.copyTree (t.filesDir.joinAll (namesOf r.source))
      (t.project.joinAll (namesOf r.destination))).perform d = (.ok (), d') := by
  unfold CopyRule.run at h
  obtain ⟨⟨source, target⟩, d₁, hpaths, hcopy⟩ := Action.bind_eq_ok h
  obtain ⟨hok, rfl⟩ : r.paths t = .ok (source, target) ∧ d = d₁ := Prod.mk.inj hpaths
  obtain ⟨rfl, rfl⟩ := CopyRule.paths_eq_ok hok
  exact hcopy

/-- A rule that does not fail mounts what it copies at its destination. -/
theorem Disk.Site.run {t : Template} {files project : Location} {source : Node} {d d' : Disk}
    (h : Site t files project source d) {r : CopyRule}
    (hd : (r.run t).perform d = (.ok (), d')) :
    Site t files project source d' ∧ d'.top.layout = d.top.layout.mount
      (project ++ namesOf r.destination) (source.layout.below (namesOf r.source)) :=
  h.copyTree (fun _ => isName_of_mem_namesOf) (fun _ => isName_of_mem_namesOf)
    (CopyRule.run_eq_ok hd)

/-! ## All rules -/

/-- A failure that was noted is not taken back, so a clean pass has none on the way. -/
theorem failed_isPrefix_of_copyRules {t : Template} {answers : AnswerMap} {env : Entries String} :
    ∀ {rules : List CopyRule} {report report' : CopyReport} {d : Disk},
      (copyRules t answers env rules report d).1.result = .ok report' →
      report.failed <+: report'.failed
  | [], report, report', d, h => by
    obtain rfl := Except.ok.inj h
    exact List.prefix_rfl
  | r :: rest, report, report', d, h => by
    rw [copyRules] at h
    split at h
    · cases h
    · have ih := failed_isPrefix_of_copyRules h
      exact ih
    · split at h
      · have ih := failed_isPrefix_of_copyRules h
        exact ih
      · have ih := failed_isPrefix_of_copyRules h
        exact (List.prefix_append ..).trans ih

/-- What a clean pass over rules does to a site. -/
theorem Disk.Site.copyRules {t : Template} {files project : Location} {source : Node}
    {answers : AnswerMap} {env : Entries String} :
    ∀ {rules : List CopyRule} {report report' : CopyReport} {d : Disk},
      Site t files project source d →
      (copyRules t answers env rules report d).1.result = .ok report' →
      report'.isClean = true →
      let d' := (Scaffold.copyRules t answers env rules report d).2
      let applied := rules.filter (·.applies t answers env)
      Site t files project source d' ∧ report'.applied = report.applied ++ applied ∧
        d'.top.layout.below project =
          applied.foldl (CopyRule.overlay source.layout) (d.top.layout.below project) ∧
        ∀ l, ¬project <+: l → ¬l <+: project → d'.top.layout l = d.top.layout l
  | [], report, report', d, hs, h, _ => by
    obtain rfl := Except.ok.inj h
    exact ⟨hs, (List.append_nil _).symm, rfl, fun _ _ _ => rfl⟩
  | r :: rest, report, report', d, hs, h, hclean => by
    rw [Scaffold.copyRules] at h ⊢
    cases hg : Gate.passes answers t.manifest.info env r.gate with
    | error f =>
      rw [hg] at h
      cases h
    | ok opened =>
      cases opened with
      | false =>
        simp only [hg] at h ⊢
        have hshut : r.applies t answers env = false := by simp [CopyRule.applies, hg]
        rw [List.filter_cons_of_neg (by simp [hshut])]
        exact hs.copyRules h hclean
      | true =>
        have hopen : r.applies t answers env = true := by simp [CopyRule.applies, hg]
        rw [List.filter_cons_of_pos hopen]
        cases hrun : (r.run t).perform d with
        | mk result d₁ =>
          cases result with
          | error f =>
            simp only [hg, hrun] at h
            have hfailed := failed_isPrefix_of_copyRules h
            rw [List.isEmpty_iff.mp hclean, List.prefix_nil] at hfailed
            exact absurd hfailed (List.append_ne_nil_of_right_ne_nil _ (List.cons_ne_nil _ _))
          | ok _ =>
            simp only [hg, hrun] at h ⊢
            obtain ⟨hs₁, hlay⟩ := hs.run hrun
            obtain ⟨hs', happlied, hbelow, hframe⟩ := hs₁.copyRules h hclean
            refine ⟨hs', ?_, ?_, fun l hl hl' => ?_⟩
            · rw [happlied, List.append_assoc, List.singleton_append]
            · rw [hbelow, hlay, Layout.below_mount, List.foldl_cons]
              rfl
            · rw [hframe l hl hl', hlay, Layout.mount_of_diverging hl hl']

/-! ## A template -/

/-- A normal path goes nowhere up. -/
theorem upsLead_normalize (d : Disk) (p : Path) : Action.UpsLead d p.normalize.parts := by
  intro above ha
  obtain ⟨names, hnames⟩ := parts_normalize p
  have hmem : Part.up ∈ p.normalize.parts := ha.subset (List.mem_append_right _ (by simp))
  rw [hnames] at hmem
  simp at hmem

/-- What copying a template relies on : the files are a tree without links, and so is what there
is of the project. They do not overlap. The path of the project leads to it once it is made, and
goes up only from directories that are there, or nowhere, if it is the normal path of a
`ProjectDir` (`upsLead_normalize`). -/
structure Template.Copyable (t : Template) (d : Disk) (files project : Location) (source : Node) :
    Prop where
  stat : d.stat t.filesDir = .ok (files, source)
  plain : source.Plain
  made : ∃ n, ((Action.makeDirs t.project).perform d).2.stat t.project = .ok (project, n)
  free : ∀ r target, d.top.layout (project ++ r) ≠ some (.link target)
  diverge : ¬files <+: project
  diverge' : ¬project <+: files
  ups : Action.UpsLead d t.project.parts

/-- Once the project is made, the rules can be run. -/
theorem Template.Copyable.site {t : Template} {d d' : Disk} {files project : Location}
    {source : Node} (h : t.Copyable d files project source)
    (hd : (Action.makeDirs t.project).perform d = (.ok (), d')) :
    Site t files project source d' ∧ d'.top.layout = d.top.layout.withDirs project := by
  obtain ⟨hmade, hleads⟩ := Action.made_makeDirs h.ups hd
  obtain ⟨n, hstat⟩ := h.made
  rw [hd] at hstat
  obtain ⟨l, hl⟩ := hleads (text_ne_of_resolve (stat_eq_ok.mp hstat))
  obtain rfl : project = l := by
    obtain ⟨entries, hf⟩ := hl
    rw [follow_of_stat hstat] at hf
    exact (Found.mk.inj (Except.ok.inj hf)).1
  have hlay := hmade.layout project hl
  have hkept : d'.top.at? files = some source := by
    refine hmade.kept _ _ (at?_of_stat h.stat) fun r => ?_
    rw [hlay, Layout.withDirs, if_neg]
    exact fun hp => h.diverge ((List.prefix_append files r).trans hp)
  refine ⟨⟨hl, fun above ha => ?_, fun r target hlink => ?_, ?_, h.plain, h.diverge, h.diverge'⟩,
    hlay⟩
  · obtain ⟨l', hl'⟩ := h.ups above ha
    exact ⟨l', hl'.of_grows hmade.grows hmade.here⟩
  · rw [hlay, Layout.withDirs] at hlink
    split at hlink
    · cases hlink
    · exact h.free r target hlink
  · exact stat_of_grows hmade.grows hmade.here h.stat hkept

theorem below_withDirs (project : Location) (layout : Layout) :
    (layout.withDirs project).below project = (layout.below project).withDirs [] := by
  funext r
  have hiff : project ++ r <+: project ++ [] ↔ r <+: [] := List.prefix_append_right_inj project
  rw [List.append_nil] at hiff
  simp only [Layout.below, Layout.withDirs, hiff]

/-- When a template is copied and no rule fails, the rules whose gates are open are applied, in
order. The project is in the end a directory with what was in it, over which each of these rules
in turn has put what it copies : where several rules write there is what the last one copies,
and where none does there is what was there before. Nothing else has changed but for the
directories above the project. -/
theorem Template.layout_copy {t : Template} {answers : AnswerMap} {env : Entries String}
    {d : Disk} {files project : Location} {source : Node} {report : CopyReport}
    (h : t.Copyable d files project source)
    (hreport : (t.copy answers env d).1.result = .ok report) (hclean : report.isClean = true) :
    let d' := (t.copy answers env d).2
    report.applied = t.manifest.copy.filter (·.applies t answers env) ∧
      (∃ final, d'.stat t.project = .ok (project, final) ∧
        final.layout = report.applied.foldl (CopyRule.overlay source.layout)
          ((d.top.layout.below project).withDirs []) ∧
        (∀ before r after s item, report.applied = before ++ r :: after →
          source.layout (namesOf r.source ++ s) = some item →
          (∀ r' ∈ after, ¬r'.Writes source.layout (namesOf r.destination ++ s)) →
            final.layout (namesOf r.destination ++ s) = some item) ∧
        ∀ l, l ≠ [] → (∀ r ∈ report.applied, ¬r.Writes source.layout l) →
          final.layout l = d.top.layout (project ++ l)) ∧
      ∀ l, ¬project <+: l → d'.top.layout l = d.top.layout.withDirs project l := by
  unfold Template.copy at hreport ⊢
  cases hd : (Action.makeDirs t.project).perform d with
  | mk result d₁ =>
    cases result with
    | error f =>
      rw [hd] at hreport
      cases hreport
    | ok _ =>
      simp only [hd] at hreport ⊢
      obtain ⟨hsite, hlay⟩ := h.site hd
      obtain ⟨hsite', happlied, hbelow, hframe⟩ := hsite.copyRules hreport hclean
      rw [List.nil_append] at happlied
      have htext : t.project.text ≠ "" := by
        obtain ⟨n, hstat⟩ := h.made
        exact text_ne_of_resolve (stat_eq_ok.mp hstat)
      obtain ⟨entries, hf⟩ := hsite'.leads
      have hstat := stat_eq_ok.mpr (resolve_of_follow htext hf)
      have hfinal : (Node.dir entries).layout =
          report.applied.foldl (CopyRule.overlay source.layout)
            ((d.top.layout.below project).withDirs []) := by
        rw [happlied, ← below_withDirs, ← hlay, ← hbelow]
        exact funext fun r => (Node.layout_append (at?_of_stat hstat) r).symm
      refine ⟨happlied, ⟨.dir entries, hstat, hfinal, ?_, ?_⟩, ?_⟩
      · intro before r after s item hsplit hitem hafter
        rw [hfinal, hsplit]
        exact overlay_of_last rfl hitem hafter _
      · intro l hl huntouched
        rw [hfinal, overlay_of_untouched huntouched, Layout.withDirs, if_neg]
        · rfl
        · exact fun hpre => hl (List.prefix_nil.mp hpre)
      · intro l hl
        by_cases hl' : l <+: project
        · rw [Node.layout_above hsite'.leads.layout hl', Layout.withDirs, if_pos hl']
        · rw [hframe l hl hl', hlay]

/-! ## A small template -/

/-- A file, and a directory with another one and an empty directory. -/
def sampleFiles : Node :=
  .dir [("a.txt", .file ⟨#[1]⟩ false),
    ("src", .dir [("b.txt", .file ⟨#[2]⟩ true), ("empty", .dir [])])]

/-- A disk with these files in a template, and a project. -/
def sampleDisk : Disk :=
  { top := .dir [("app", .dir [("old.txt", .file ⟨#[3]⟩ false)]),
      ("tpl", .dir [("template", sampleFiles)])] }

/-- The template. Its second rule writes a path that the first one has written. -/
def sampleTemplate : Template where
  name := "tpl"
  directory := ⟨"/tpl"⟩
  project := ⟨"/app"⟩
  manifest :=
    { copy :=
        [{ source := "src" }, { source := "a.txt", target := "src/b.txt" },
          { source := "a.txt", target := "no/c.txt", gate := "false" }] }

theorem plain_sampleFiles : sampleFiles.Plain := by
  refine .dir (by decide) (by decide) ?_
  simp only [List.forall_mem_cons]
  refine ⟨.file _ _, .dir (by decide) (by decide) ?_, by simp⟩
  simp only [List.forall_mem_cons]
  exact ⟨.file _ _, .dir (by decide) (by decide) (by simp), by simp⟩

theorem copyable_sample :
    sampleTemplate.Copyable sampleDisk ["tpl", "template"] ["app"] sampleFiles where
  stat := by
    have h : sampleTemplate.filesDir = ⟨"/tpl/template"⟩ := by decide +kernel
    rw [h]
    rfl
  plain := plain_sampleFiles
  made := ⟨_, rfl⟩
  free r target := by
    have h : sampleDisk.top.at? ["app"] = some (.dir [("old.txt", .file ⟨#[3]⟩ false)]) := rfl
    have hp : Node.Plain (.dir [("old.txt", .file ⟨#[3]⟩ false)]) :=
      .dir (by decide) (by decide) (by simpa using .file _ _)
    rw [Node.layout_append h]
    exact hp.layout_ne_link r target
  diverge := by decide
  diverge' := by decide
  ups := upsLead_normalize sampleDisk ⟨"/app"⟩

/-- The file of the second rule stands in the place of the other one, and the rest is there. -/
theorem layout_copy_sample : ∃ report final,
    (sampleTemplate.copy [] [] sampleDisk).1.result = .ok report ∧ report.isClean = true ∧
      report.applied = [{ source := "src" }, { source := "a.txt", target := "src/b.txt" }] ∧
      (sampleTemplate.copy [] [] sampleDisk).2.stat ⟨"/app"⟩ = .ok (["app"], final) ∧
      final.layout ["src", "b.txt"] = some (.file ⟨#[1]⟩ false) ∧
      final.layout ["src", "empty"] = some .dir ∧
      final.layout ["old.txt"] = some (.file ⟨#[3]⟩ false) := by
  have h : ((sampleTemplate.copy [] [] sampleDisk).1.result.toOption.map fun r =>
      (r.applied, r.failed)) =
      some ([{ source := "src" }, { source := "a.txt", target := "src/b.txt" }], []) := by
    decide +kernel
  cases hr : (sampleTemplate.copy [] [] sampleDisk).1.result with
  | error f =>
    rw [hr] at h
    cases h
  | ok report =>
    rw [hr] at h
    obtain ⟨happlied, hfailed⟩ := Prod.mk.inj (Option.some.inj h)
    have hclean : report.isClean = true := by rw [CopyReport.isClean, hfailed]; rfl
    obtain ⟨-, ⟨final, hstat, hlay, -⟩, -⟩ := Template.layout_copy copyable_sample hr hclean
    rw [happlied] at hlay
    refine ⟨report, final, rfl, hclean, happlied, hstat, ?_, ?_, ?_⟩
    · rw [hlay]
      rfl
    · rw [hlay]
      rfl
    · rw [hlay]
      rfl

end Scaffold
