import Scaffold.Proofs.Copy.Overlay
import Scaffold.Proofs.Copy.Reading
import Scaffold.Proofs.Disk.Lookup

/-!
# Copying once more

What has been copied can be copied again, whatever has been stored since. Directories that were
made are there, files that were copied are files, and nothing that is there goes away, so an
action that has succeeded once on a site succeeds there again (`Repeats`). This is so for all
actions of a rule, and for a rule itself (`repeats_run`). A pass that no rule failed in leaves a
disk where each of its rules has been run (`hasRun_of_copyRules`), and on such a disk a pass has
the same report (`copyRules_of_hasRun`).
-/

namespace Scaffold

open Scaffold.Path

namespace Disk

/-- Making directories once more does nothing. -/
theorem Action.makeDirs_again {p : Path} {d d' e : Disk}
    (h : (makeDirs p).perform d = (.ok (), d')) (hg : d'.top.layout.Grows e.top.layout)
    (hhere : e.here = d'.here) : (makeDirs p).perform e = (.ok (), e) := by
  unfold makeDirs at h ⊢
  obtain ⟨above, habove⟩ : ∃ above, pathsUp p.parts.length p = p :: above := by
    cases p.parts.length <;> exact ⟨_, rfl⟩
  rw [habove] at h ⊢
  by_cases hp : p.text = ""
  · rw [perform_ensureDirsFrom_cons]
    simp [hp]
  · have hleads : ∃ l, d'.Leads p.parts l := by
      rcases ensureDirsFrom_eq_ok h with ⟨hempty, -⟩ | hm | ⟨-, -, d₁, -, hm⟩
      · exact (hp hempty).elim
      · exact (made_of_makeDir hm).2
      · exact (made_of_makeDir (ensureDir_eq_ok hm)).2
    obtain ⟨l, hl⟩ := hleads
    exact ensureDirsFrom_of_leads (hl.of_grows hg hhere) above

/-! ## One action -/

/-- Whether an action that succeeds on a site succeeds there again, whatever has been stored since.
It keeps the site and all that is there. -/
structure Repeats (t : Template) (files project : Location) (source : Node)
    (a : Disk.Action Unit) : Prop where
  keeps : ∀ {d d' : Disk}, Site t files project source d → a.perform d = (.ok (), d') →
    Site t files project source d' ∧ d.top.layout.Grows d'.top.layout ∧ d'.here = d.here
  again : ∀ {d d' e : Disk}, Site t files project source d → a.perform d = (.ok (), d') →
    Site t files project source e → d'.top.layout.Grows e.top.layout → e.here = d'.here →
    ∃ e', a.perform e = (.ok (), e')

variable {t : Template} {files project : Location} {source : Node}

theorem repeats_pure : Repeats t files project source (pure ()) where
  keeps h hd := by
    obtain ⟨-, rfl⟩ := Prod.mk.inj hd
    exact ⟨h, .refl _, rfl⟩
  again _ _ _ _ _ := ⟨_, rfl⟩

/-- An action that succeeds on no site. -/
theorem repeats_of_fails {a : Disk.Action Unit}
    (h : ∀ d d', Site t files project source d → a.perform d ≠ (.ok (), d')) :
    Repeats t files project source a :=
  ⟨fun hs hd => (h _ _ hs hd).elim, fun hs hd => (h _ _ hs hd).elim⟩

/-- Actions that succeed one after the other do so again : the first of them takes nothing from
the second one. -/
theorem Repeats.bind {a b : Disk.Action Unit} (ha : Repeats t files project source a)
    (hb : Repeats t files project source b) :
    Repeats t files project source (a >>= fun _ => b) where
  keeps h hd := by
    obtain ⟨_, d₁, hfirst, hrest⟩ := Action.bind_eq_ok hd
    obtain ⟨h₁, hg₁, hhere₁⟩ := ha.keeps h hfirst
    obtain ⟨h', hg', hhere'⟩ := hb.keeps h₁ hrest
    exact ⟨h', hg₁.trans hg', hhere'.trans hhere₁⟩
  again h hd he hg hhere := by
    obtain ⟨_, d₁, hfirst, hrest⟩ := Action.bind_eq_ok hd
    obtain ⟨h₁, -, -⟩ := ha.keeps h hfirst
    obtain ⟨-, hg₁, hhere₁⟩ := hb.keeps h₁ hrest
    obtain ⟨e₁, he₁⟩ := ha.again h hfirst he (hg₁.trans hg) (hhere.trans hhere₁)
    obtain ⟨hsite, hgrows, hsame⟩ := ha.keeps he he₁
    obtain ⟨e', he'⟩ := hb.again h₁ hrest hsite (hg.trans hgrows) (hsame.trans hhere)
    refine ⟨e', ?_⟩
    rw [Action.perform_bind, he₁]
    exact he'

/-- Actions that are the same on all sites. -/
theorem Repeats.congr {a b : Disk.Action Unit} (hb : Repeats t files project source b)
    (hab : ∀ d, Site t files project source d → a.perform d = b.perform d) :
    Repeats t files project source a where
  keeps h hd := hb.keeps h (hab _ h ▸ hd)
  again h hd he hg hhere := by
    rw [hab _ he]
    exact hb.again h (hab _ h ▸ hd) he hg hhere

theorem repeats_makeDirs {p : Path} {names : List String}
    (hp : p.parts = t.project.parts ++ names.map Part.name) (hnames : ∀ n ∈ names, IsName n) :
    Repeats t files project source (Action.makeDirs p) where
  keeps {d d'} h hd := by
    have hm := Action.makes_makeDirs p d
    rw [hd] at hm
    exact ⟨(h.makeDirs hp hnames hd).1, hm.grows, hm.here⟩
  again _ hd _ hg hhere := ⟨_, Action.makeDirs_again hd hg hhere⟩

/-- What names below the files lead to on a site. -/
theorem Site.stat_files {d : Disk} (h : Site t files project source d) {sub : List String}
    (hsub : ∀ n ∈ sub, IsName n) {n : Node} (hn : source.at? sub = some n) :
    d.stat (t.filesDir.joinAll sub) = .ok (files ++ sub, n) := by
  have hfree : ∀ r target, d.top.layout (files ++ r) ≠ some (.link target) := fun r target => by
    rw [Node.layout_append (at?_of_stat h.stat)]
    exact h.plain.layout_ne_link r target
  rw [stat_joinAll_eq h.stat hfree hsub, Node.at?_append, at?_of_stat h.stat, Option.bind_some, hn]

/-- Placing a file below the project first makes the directory that it goes to. -/
theorem Site.exists_makeDirs_of_placeFile {d d' : Disk} (h : Site t files project source d)
    {p : Path} {above : List String} {n : String} (habove : ∀ m ∈ above, IsName m) (hn : IsName n)
    (hd : (Action.placeFile p (t.project.joinAll (above ++ [n]))).perform d = (.ok (), d')) :
    ∃ d₁, (Action.makeDirs (ofParts (t.project.joinAll above).parts)).perform d = (.ok (), d₁) ∧
      d.top.layout.Grows d₁.top.layout ∧ d₁.here = d.here ∧
      d₁.Leads (t.project.joinAll above).parts (project ++ above) ∧
      d₁.top.layout.Grows d'.top.layout ∧ d'.here = d₁.here := by
  obtain ⟨d₁, hmade, h₁, hleads, -, hcopy⟩ := h.exists_site_of_placeFile habove hn hd
  have hm := Action.makes_makeDirs (ofParts (t.project.joinAll above).parts) d
  rw [hmade] at hm
  obtain ⟨-, -, -, -, -, -, hhere, -, hg, -⟩ :=
    Action.stored_of_copyFile hn hleads (h₁.not_link_concat above n) hcopy
  exact ⟨d₁, hmade, hm.grows, hm.here, hleads, hg, hhere⟩

theorem repeats_placeFile {sub names : List String} (hsub : ∀ n ∈ sub, IsName n)
    (hnames : ∀ n ∈ names, IsName n) :
    Repeats t files project source
      (Action.placeFile (t.filesDir.joinAll sub) (t.project.joinAll names)) := by
  rcases List.eq_nil_or_concat' names with rfl | ⟨above, n, rfl⟩
  · exact repeats_of_fails fun _ _ h => h.not_placeFile
  have hn : IsName n := hnames n (by simp)
  have habove : ∀ m ∈ above, IsName m := fun m hm => hnames m (List.mem_append_left _ hm)
  refine ⟨fun {d d'} h hd => ?_, fun {d d' e} h hd he hg hhere => ?_⟩
  · obtain ⟨d₁, -, hg₁, hhere₁, -, hg', hhere'⟩ := h.exists_makeDirs_of_placeFile habove hn hd
    exact ⟨(h.placeFile hsub hnames hd).1, hg₁.trans hg', hhere'.trans hhere₁⟩
  · obtain ⟨d₁, hmade, -, -, hleads, hg₁, hhere₁⟩ :=
      h.exists_makeDirs_of_placeFile habove hn hd
    obtain ⟨-, bytes, executable, hfile, hlay⟩ := h.placeFile hsub hnames hd
    have hg' := hg₁.trans hg
    have hhere' := hhere.trans hhere₁
    have hplace : d'.top.layout (project ++ above ++ [n]) = some (.file bytes executable) := by
      rw [hlay, Layout.place, List.append_assoc, if_pos rfl]
    obtain ⟨bytes', executable', hthere⟩ := hg.file hplace
    have hresolve : e.resolve true ((t.project.joinAll above).join n) =
        e.follow true ((t.project.joinAll above).parts ++ [.name n]) :=
      resolve_join e true (t.project.joinAll above) (c := .name n) hn
    rw [(hleads.of_grows hg' hhere').follow_name hn true (he.not_link_concat above n),
      Node.layout_eq_file.mp hthere] at hresolve
    rw [Action.placeFile_joinAll _ t.project above hn, Action.perform_bind,
      Action.makeDirs_again hmade hg' hhere']
    dsimp only
    rw [Action.perform_copyFile, he.stat_files hsub hfile]
    dsimp only
    rw [hresolve]
    exact ⟨_, rfl⟩

/-! ## Trees and rules -/

/-- Copying items of a tree. -/
theorem repeats_copyVisits {sub names : List String} (hsub : ∀ n ∈ sub, IsName n)
    (hnames : ∀ n ∈ names, IsName n) :
    ∀ {items : List (Location × Item)}, (∀ e ∈ items, ∀ n ∈ e.1, IsName n) →
      Repeats t files project source (Action.copyVisits (t.filesDir.joinAll sub)
        (t.project.joinAll names) (items.map (visitOf [])))
  | [], _ => repeats_pure
  | e :: items, h => by
    have hall : ∀ n ∈ names ++ e.1, IsName n :=
      List.forall_mem_append.mpr ⟨hnames, h e List.mem_cons_self⟩
    have hrest := repeats_copyVisits hsub hnames fun e he => h e (List.mem_cons_of_mem _ he)
    rw [List.map_cons, visitOf, List.nil_append, Action.copyVisits_cons]
    refine Repeats.bind ?_ hrest
    simp only [← joinAll_append]
    split
    · exact repeats_makeDirs (parts_joinAll _ _ hall) hall
    · exact repeats_placeFile (List.forall_mem_append.mpr ⟨hsub, h e List.mem_cons_self⟩) hall

/-- Copying a tree of the template. The tree is the same on all sites, and so are its items. -/
theorem repeats_copyTree (hplain : source.Plain) {sub names : List String}
    (hsub : ∀ n ∈ sub, IsName n) (hnames : ∀ n ∈ names, IsName n) :
    Repeats t files project source
      (Action.copyTree (t.filesDir.joinAll sub) (t.project.joinAll names)) := by
  cases hn : source.at? sub with
  | none =>
    refine repeats_of_fails fun d d' h hd => ?_
    rw [Action.perform_copyTree] at hd
    split at hd
    · cases (Prod.mk.inj hd).1
    · rename_i found hstat
      obtain ⟨-, hsome⟩ := stat_joinAll h.stat h.plain.layout_ne_link hsub hstat
      rw [hn] at hsome
      cases hsome
  | some n =>
    have hplain : n.Plain := hplain.at? hn
    cases hdir : n.isDir with
    | true =>
      have hitems : ∀ e ∈ n.items, ∀ name ∈ e.1, IsName name := fun e he => by
        have hlay := (Node.mem_items hplain).mp he
        exact hplain.isName (by rw [hlay]; exact Option.some_ne_none _)
      refine Repeats.congr (repeats_copyVisits hsub hnames hitems) fun d h => ?_
      have hstat := h.stat_files hsub hn
      rw [Action.perform_copyTree, hstat]
      dsimp only
      rw [hdir, if_pos rfl, walkFrom_of_plain hstat hdir hplain]
    | false =>
      refine Repeats.congr (repeats_placeFile hsub hnames) fun d h => ?_
      rw [Action.perform_copyTree, h.stat_files hsub hn]
      dsimp only
      rw [hdir, if_neg Bool.false_ne_true]

/-- Running a rule. -/
theorem repeats_run (hplain : source.Plain) (r : CopyRule) :
    Repeats t files project source (r.run t) := by
  cases hpaths : r.paths t with
  | error f =>
    refine repeats_of_fails fun d d' _ hd => ?_
    rw [CopyRule.perform_run, hpaths] at hd
    cases (Prod.mk.inj hd).1
  | ok paths =>
    obtain ⟨p, q⟩ := paths
    obtain ⟨rfl, rfl⟩ := CopyRule.paths_eq_ok hpaths
    have htree : Repeats t files project source
        (Action.copyTree (t.filesDir.joinAll (namesOf r.source))
          (t.project.joinAll (namesOf r.destination))) :=
      repeats_copyTree hplain (fun _ => isName_of_mem_namesOf) fun _ => isName_of_mem_namesOf
    refine htree.congr fun d _ => ?_
    rw [CopyRule.perform_run, hpaths]

end Disk

/-! ## Passes over rules -/

open Disk

/-- Whether a rule has been run on a site, and nothing has gone away since. -/
def CopyRule.HasRun (t : Template) (files project : Location) (source : Node) (r : CopyRule)
    (d : Disk) : Prop :=
  ∃ before after, Site t files project source before ∧
    (r.run t).perform before = (.ok (), after) ∧ after.top.layout.Grows d.top.layout ∧
    d.here = after.here

variable {t : Template} {files project : Location} {source : Node} {answers : AnswerMap}
  {env : Entries String}

theorem CopyRule.HasRun.of_grows {r : CopyRule} {d d' : Disk}
    (h : r.HasRun t files project source d) (hg : d.top.layout.Grows d'.top.layout)
    (hhere : d'.here = d.here) : r.HasRun t files project source d' := by
  obtain ⟨before, after, hs, hrun, hgrows, hsame⟩ := h
  exact ⟨before, after, hs, hrun, hgrows.trans hg, hhere.trans hsame⟩

/-- After a pass that no rule failed in, each of its rules has been run. -/
theorem hasRun_of_copyRules :
    ∀ {rules : List CopyRule} {report report' : CopyReport} {d : Disk},
      Site t files project source d →
      (copyRules t answers env rules report d).1.result = .ok report' → report'.isClean = true →
      let d' := (copyRules t answers env rules report d).2
      d.top.layout.Grows d'.top.layout ∧ d'.here = d.here ∧
        ∀ r ∈ rules, r.applies t answers env = true → r.HasRun t files project source d'
  | [], _, _, _, _, _, _ => ⟨.refl _, rfl, by simp⟩
  | r :: rest, report, report', d, hs, h, hclean => by
    rw [copyRules] at h ⊢
    cases hg : Gate.passes answers t.manifest.info env r.gate with
    | error f =>
      rw [hg] at h
      cases h
    | ok opened =>
      cases opened with
      | false =>
        simp only [hg] at h ⊢
        have hshut : r.applies t answers env = false := by simp [CopyRule.applies, hg]
        obtain ⟨hgrows, hhere, hrest⟩ := hasRun_of_copyRules hs h hclean
        exact ⟨hgrows, hhere, List.forall_mem_cons.mpr ⟨by simp [hshut], hrest⟩⟩
      | true =>
        cases hrun : (r.run t).perform d with
        | mk result d₁ =>
          cases result with
          | error f =>
            simp only [hg, hrun] at h
            have hfailed := failed_isPrefix_of_copyRules h
            rw [List.isEmpty_iff.mp hclean, List.prefix_nil] at hfailed
            exact absurd hfailed (List.append_ne_nil_of_right_ne_nil _ (List.cons_ne_nil _ _))
          | ok _ =>
            simp only [hg, hrun] at h ⊢
            obtain ⟨hs₁, hg₁, hhere₁⟩ := (repeats_run hs.plain r).keeps hs hrun
            obtain ⟨hgrows, hhere, hrest⟩ := hasRun_of_copyRules hs₁ h hclean
            exact ⟨hg₁.trans hgrows, hhere.trans hhere₁,
              List.forall_mem_cons.mpr ⟨fun _ => ⟨d, d₁, hs, hrun, hgrows, hhere⟩, hrest⟩⟩

/-- Rules that have been run can all be run once more. -/
theorem copyRules_of_hasRun :
    ∀ {rules : List CopyRule} (report : CopyReport) {d : Disk},
      Site t files project source d → (∀ r ∈ rules, r.Decided t answers env) →
      (∀ r ∈ rules, r.applies t answers env = true → r.HasRun t files project source d) →
      ∃ d', copyRules t answers env rules report d =
        ({ report := report.append
            { applied := rules.filter (·.applies t answers env)
              skipped := rules.filter (·.isShut t answers env) } }, d')
  | [], report, d, _, _, _ => ⟨d, by simp [copyRules, CopyReport.append]⟩
  | r :: rest, report, d, hs, hdec, h => by
    have hdec' : ∀ r' ∈ rest, r'.Decided t answers env := fun r' hr' =>
      hdec r' (List.mem_cons_of_mem r hr')
    obtain ⟨opened, hg⟩ := hdec r List.mem_cons_self
    cases opened with
    | false =>
      obtain ⟨d', hd'⟩ := copyRules_of_hasRun
        { report with skipped := report.skipped ++ [r] } hs hdec'
        fun r' hr' => h r' (List.mem_cons_of_mem r hr')
      refine ⟨d', ?_⟩
      simp [copyRules, hg, hd', CopyReport.append, CopyRule.applies, CopyRule.isShut]
    | true =>
      have hopen : r.applies t answers env = true := by simp [CopyRule.applies, hg]
      obtain ⟨before, after, hbefore, hran, hgrows, hhere⟩ := h r List.mem_cons_self hopen
      have hrepeats : Repeats t files project source (r.run t) := repeats_run hs.plain r
      obtain ⟨d₁, hrun⟩ := hrepeats.again hbefore hran hs hgrows hhere
      obtain ⟨hs₁, hg₁, hhere₁⟩ := hrepeats.keeps hs hrun
      obtain ⟨d', hd'⟩ := copyRules_of_hasRun
        { report with applied := report.applied ++ [r] } hs₁ hdec'
        fun r' hr' hopen' => (h r' (List.mem_cons_of_mem r hr') hopen').of_grows hg₁ hhere₁
      refine ⟨d', ?_⟩
      simp [copyRules, hg, hrun, hd', CopyReport.append, CopyRule.applies, CopyRule.isShut]

end Scaffold
