import Mathlib.Data.List.Pairwise
import Scaffold.Proofs.Copy.Outcome
import Scaffold.Proofs.Project.Again

/-!
# The order of copy rules

Two rules whose destinations part ways have no more in common than the directories above them. So
what comes of one of them does not depend on the other one, and they can be run one way or the other
(`CopyRule.independent_of_landApart`). A pass sorts such rules by what would come of each of them
alone (`Tracks.copyRules`), which is the same in every order, and so is what the pass leaves of the
project, also where rules have failed (`Template.copy_perm`).
-/

namespace Scaffold

open Scaffold.Path Disk

/-- Whether the places where two rules copy to part ways, as far as their paths stay in the
project. -/
def CopyRule.LandApart (t : Template) (r r' : CopyRule) : Prop :=
  ∀ p p', t.project.containedJoin r.destination = some p →
    t.project.containedJoin r'.destination = some p' →
    ¬p.parts <+: p'.parts ∧ ¬p'.parts <+: p.parts

/-- Whether what comes of a rule can be told from a state that follows the disk. -/
def Tracks {σ : Type} (t : Template) (follows : Disk → σ → Prop)
    (pass : CopyRule → σ → Bool × σ) : Prop :=
  ∀ (r : CopyRule) d s, follows d s → ((r.run t).perform d).1.isOk = (pass r s).1 ∧
    follows ((r.run t).perform d).2 (pass r s).2

/-- Whether two rules can be run one way or the other, and neither cares about the other one. -/
def Independent {σ : Type} (pass : CopyRule → σ → Bool × σ) (r r' : CopyRule) : Prop :=
  ∀ s, (pass r' (pass r s).2).1 = (pass r' s).1 ∧ (pass r (pass r' s).2).1 = (pass r s).1 ∧
    (pass r' (pass r s).2).2 = (pass r (pass r' s).2).2

instance {σ : Type} (pass : CopyRule → σ → Bool × σ) : Std.Symm (Independent pass) :=
  ⟨fun _ _ h s => ⟨(h s).2.1, (h s).1, (h s).2.2.symm⟩⟩

variable {t : Template} {answers : AnswerMap} {env : Entries String}

/-! ## Rules that are independent -/

section

variable {σ : Type} {follows : Disk → σ → Prop} {pass : CopyRule → σ → Bool × σ}

/-- A pass over independent rules sorts them by what comes of each of them alone. -/
theorem Tracks.copyRules (h : Tracks t follows pass) :
    ∀ {rules : List CopyRule} (report : CopyReport) {d : Disk} {s : σ}, follows d s →
      (∀ r ∈ rules, r.Decided t answers env) → rules.Pairwise (Independent pass) →
      let result := Scaffold.copyRules t answers env rules report d
      let opened := rules.filter (·.applies t answers env)
      result.1.stop = none ∧
        result.1.report.applied = report.applied ++ opened.filter (fun r => (pass r s).1) ∧
        result.1.report.skipped = report.skipped ++ rules.filter (·.isShut t answers env) ∧
        result.1.report.failed.map Prod.fst =
          report.failed.map Prod.fst ++ opened.filter (fun r => !(pass r s).1) ∧
        follows result.2 (opened.foldl (fun s r => (pass r s).2) s)
  | [], report, d, s, hs, _, _ => by simp [Scaffold.copyRules, hs]
  | r :: rest, report, d, s, hs, hdecided, hindependent => by
    have hdecided' : ∀ r' ∈ rest, r'.Decided t answers env := fun r' hr' =>
      hdecided r' (List.mem_cons_of_mem r hr')
    obtain ⟨hr, hrest⟩ := List.pairwise_cons.mp hindependent
    obtain ⟨opened, hg⟩ := hdecided r List.mem_cons_self
    rw [Scaffold.copyRules, hg]
    cases opened with
    | false =>
      have hshut : r.isShut t answers env = true := by simp [CopyRule.isShut, hg]
      have happlies : r.applies t answers env = false := by simp [CopyRule.applies, hg]
      have ih := h.copyRules { report with skipped := report.skipped ++ [r] } hs hdecided' hrest
      simpa [hshut, happlies] using ih
    | true =>
      have hopen : r.isShut t answers env = false := by simp [CopyRule.isShut, hg]
      have happlies : r.applies t answers env = true := by simp [CopyRule.applies, hg]
      obtain ⟨hok, hs₁⟩ := h r d s hs
      have hsame : ∀ r' ∈ rest.filter (·.applies t answers env),
          (pass r' (pass r s).2).1 = (pass r' s).1 := fun r' hr' =>
        (hr r' (List.mem_of_mem_filter hr') s).1
      have happlied := List.filter_congr hsame
      have hfailed := List.filter_congr fun r' hr' => congrArg not (hsame r' hr')
      cases hrun : (r.run t).perform d with
      | mk result d₁ =>
        rw [hrun] at hok hs₁
        cases result with
        | ok _ =>
          have hpass : (pass r s).1 = true := hok.symm
          have ih := h.copyRules { report with applied := report.applied ++ [r] } hs₁ hdecided'
            hrest
          simpa [hopen, happlies, hpass, happlied, hfailed] using ih
        | error f =>
          have hpass : (pass r s).1 = false := hok.symm
          have ih := h.copyRules { report with failed := report.failed ++ [(r, f)] } hs₁ hdecided'
            hrest
          simpa [hopen, happlies, hpass, happlied, hfailed] using ih

/-- Passes over the same independent rules come to the same in every order. -/
theorem Tracks.copyRules_perm (h : Tracks t follows pass) {d : Disk} {s : σ} (hs : follows d s)
    {rules rules' : List CopyRule} (hperm : rules.Perm rules')
    (hdecided : ∀ r ∈ rules, r.Decided t answers env) (hpairs : rules.Pairwise (Independent pass)) :
    let result := Scaffold.copyRules t answers env rules {} d
    let result' := Scaffold.copyRules t answers env rules' {} d
    result.1.stop = result'.1.stop ∧
      result.1.report.applied.Perm result'.1.report.applied ∧
      result.1.report.skipped.Perm result'.1.report.skipped ∧
      (result.1.report.failed.map Prod.fst).Perm (result'.1.report.failed.map Prod.fst) ∧
      ∃ s', follows result.2 s' ∧ follows result'.2 s' := by
  have hdecided' : ∀ r ∈ rules', r.Decided t answers env := fun r hr =>
    hdecided r (hperm.mem_iff.mpr hr)
  have hpairs' : rules'.Pairwise (Independent pass) :=
    (hperm.pairwise_iff fun h => Std.Symm.symm _ _ h).mp hpairs
  obtain ⟨hstop, happlied, hskipped, hfailed, hend⟩ := h.copyRules {} hs hdecided hpairs
  obtain ⟨hstop', happlied', hskipped', hfailed', hend'⟩ := h.copyRules {} hs hdecided' hpairs'
  have hopened := hperm.filter (·.applies t answers env)
  intro result result'
  refine ⟨hstop.trans hstop'.symm, ?_, ?_, ?_, _, hend, ?_⟩
  · rw [happlied, happlied']
    exact hopened.filter _
  · rw [hskipped, hskipped']
    exact hperm.filter _
  · rw [hfailed, hfailed']
    exact hopened.filter _
  · -- Two rules can change places, and a rule can do so with itself.
    rw [hopened.foldl_eq']
    · exact hend'
    · intro r hr r' hr' s
      by_cases heq : r = r'
      · rw [heq]
      · exact ((hpairs.sublist List.filter_sublist).forall hr hr' heq s).2.2

end

/-! ## Rules next to each other -/

/-- What a rule copies goes to below its destination, which stays in the project. -/
theorem CopyRule.items?_eq_some {source : Node} {r : CopyRule} {items : List (Location × Item)}
    (h : r.items? t source = some items) :
    (∃ p, t.project.containedJoin r.destination = some p ∧
      p.parts = t.project.parts ++ (namesOf r.destination).map Part.name) ∧
    ∀ e ∈ items, ∃ s, e.1 = namesOf r.destination ++ s := by
  unfold items? at h
  split at h
  · cases h
  · rename_i paths hpaths
    obtain ⟨tree, -, rfl⟩ := Option.map_eq_some_iff.mp h
    refine ⟨⟨paths.2, (CopyRule.containedJoin_of_paths hpaths).2, ?_⟩, fun e he => ?_⟩
    · rw [(CopyRule.paths_eq_ok hpaths).2]
      exact parts_joinAll t.project _ fun _ => isName_of_mem_namesOf
    · obtain ⟨e', -, rfl⟩ := List.mem_map.mp he
      exact ⟨e'.1, rfl⟩

/-- What comes of a rule and what it leaves do not depend on a rule that copies elsewhere. -/
theorem CopyRule.pass_comm {r r' : CopyRule} (h : r.LandApart t r') (source : Node)
    (layout : Layout) :
    r'.pass t source (r.pass t source layout).2 =
      ((r'.pass t source layout).1, (r.pass t source (r'.pass t source layout).2).2) := by
  unfold pass
  cases hitems : r.items? t source with
  | none => rfl
  | some items =>
    cases hitems' : r'.items? t source with
    | none => rfl
    | some items' =>
      obtain ⟨⟨p, hp, hparts⟩, hbelow⟩ := CopyRule.items?_eq_some hitems
      obtain ⟨⟨p', hp', hparts'⟩, hbelow'⟩ := CopyRule.items?_eq_some hitems'
      have happart : PartWays (namesOf r.destination) (namesOf r'.destination) := by
        obtain ⟨hnot, hnot'⟩ := h p p' hp hp'
        rw [hparts, hparts', List.prefix_append_right_inj] at hnot hnot'
        exact ⟨fun hpre => hnot (hpre.map _), fun hpre => hnot' (hpre.map _)⟩
      refine Layout.placeAll_comm fun e he e' he' => ?_
      obtain ⟨s, hs⟩ := hbelow e he
      obtain ⟨s', hs'⟩ := hbelow' e' he'
      rw [hs, hs']
      exact happart.append s s'

theorem CopyRule.LandApart.symm {r r' : CopyRule} (h : r.LandApart t r') : r'.LandApart t r :=
  fun p p' hp hp' => And.symm (h p' p hp' hp)

/-- Rules whose destinations part ways are independent of each other. -/
theorem CopyRule.LandApart.independent {r r' : CopyRule} (h : r.LandApart t r')
    (source : Node) : Independent (CopyRule.pass t source) r r' := by
  intro layout
  rw [CopyRule.pass_comm h, CopyRule.pass_comm h.symm]
  exact ⟨rfl, rfl, rfl⟩

/-! ## A template -/

/-- The layout of a project follows a disk on which rules are run. -/
theorem Disk.Site.tracks {files project : Location} {source : Node} (old : Layout) :
    Tracks t (fun d layout => Site t files project source d ∧
        d.top.layout.below project = layout ∧ ∀ l, ¬project <+: l → d.top.layout l = old l)
      (CopyRule.pass t source) := by
  rintro r d layout ⟨h, rfl, hbeside⟩
  obtain ⟨hok, hbelow, hsame, hsite⟩ := h.run_pass r
  exact ⟨hok, hsite, hbelow, fun l hl => (hsame l hl).trans (hbeside l hl)⟩

/-- The order of copy rules matters only where their destinations meet. When all gates can be
decided and no destination is at or below another one, every order of the rules leaves the same
files and directories, in the project and elsewhere, and each rule is applied, skipped or has
failed in all of them alike. -/
theorem Template.copy_perm {d : Disk} (h : t.Beside d) {rules rules' : List CopyRule}
    (hperm : rules.Perm rules') (hdecided : ∀ r ∈ rules, r.Decided t answers env)
    (happart : rules.Pairwise (CopyRule.LandApart t)) :
    let pass := (t.withCopy rules).copy answers env d
    let pass' := (t.withCopy rules').copy answers env d
    pass.1.stop = pass'.1.stop ∧
      pass.1.report.applied.Perm pass'.1.report.applied ∧
      pass.1.report.skipped.Perm pass'.1.report.skipped ∧
      (pass.1.report.failed.map Prod.fst).Perm (pass'.1.report.failed.map Prod.fst) ∧
      ∀ l, pass.2.top.layout l = pass'.2.top.layout l := by
  cases hd : ((Action.makeDirs t.project).perform d).1 with
  | error f =>
    have hrefused (rules : List CopyRule) : (t.withCopy rules).copy answers env d =
        ({ stop := some (.io f) }, t.made d) := by
      have hmade : (Action.makeDirs (t.withCopy rules).project).perform d =
        (.error f, t.made d) := Prod.ext hd rfl
      rw [Template.copy, hmade]
    rw [hrefused, hrefused]
    exact ⟨rfl, .refl _, .refl _, .refl _, fun _ => rfl⟩
  | ok _ =>
    have hcopy (rules : List CopyRule) : (t.withCopy rules).copy answers env d =
        copyRules t answers env rules {} (t.made d) :=
      ((t.withCopy rules).copy_eq hd).trans (copyRules_withCopy rules rules {} (t.made d))
    rw [hcopy, hcopy]
    cases hfiles : (t.made d).stat t.filesDir with
    | error f =>
      -- Each rule fails, and nothing happens.
      have htracks : Tracks t (fun d' (_ : Unit) => d' = t.made d) fun _ s => (false, s) := by
        rintro r _ s rfl
        obtain ⟨f', hf⟩ := r.run_of_no_files hfiles
        rw [hf]
        exact ⟨rfl, rfl⟩
      obtain ⟨hstop, happlied, hskipped, hfailed, s, hend, hend'⟩ :=
        htracks.copyRules_perm (s := ()) rfl hperm hdecided
          (List.pairwise_of_forall fun _ _ _ => ⟨rfl, rfl, rfl⟩)
      exact ⟨hstop, happlied, hskipped, hfailed, fun l => by rw [hend, hend']⟩
    | ok found =>
      obtain ⟨files, source⟩ := found
      obtain ⟨project, -, hsite⟩ := h.site hd hfiles
      obtain ⟨hstop, happlied, hskipped, hfailed, layout, ⟨-, hend, hbeside⟩, ⟨-, hend', hbeside'⟩⟩ :=
        (Site.tracks (t.made d).top.layout).copyRules_perm ⟨hsite, rfl, fun _ _ => rfl⟩ hperm
          hdecided (happart.imp fun h => h.independent source)
      refine ⟨hstop, happlied, hskipped, hfailed, fun l => ?_⟩
      by_cases hl : project <+: l
      · obtain ⟨r, rfl⟩ := hl
        exact congrFun (hend.trans hend'.symm) r
      · exact (hbeside l hl).trans (hbeside' l hl).symm

theorem beside_sample : sampleTemplate.Beside sampleDisk := by
  have hplace : sampleTemplate.place? sampleDisk = some ["app"] := rfl
  have hfiles : (sampleTemplate.made sampleDisk).stat sampleTemplate.filesDir =
      .ok (["tpl", "template"], sampleFiles) := by
    have h : sampleTemplate.filesDir = ⟨"/tpl/template"⟩ := by decide +kernel
    rw [h]
    rfl
  refine ⟨rfl, fun place h => ?_, fun l n h => ?_, fun place h l n h' => ?_⟩
  · obtain rfl := Option.some.inj (hplace.symm.trans h)
    exact copyable_sample.free
  · obtain ⟨-, rfl⟩ := Prod.mk.inj (Except.ok.inj (hfiles.symm.trans h))
    exact plain_sampleFiles
  · obtain rfl := Option.some.inj (hplace.symm.trans h)
    obtain ⟨rfl, -⟩ := Prod.mk.inj (Except.ok.inj (hfiles.symm.trans h'))
    exact ⟨copyable_sample.diverge, copyable_sample.diverge'⟩

/-- Rules of which one has a file in its way, and one would leave the project. -/
def distantRules : List CopyRule :=
  [{ source := "src" }, { source := "a.txt", target := "old.txt/a.txt" },
    { source := "a.txt", target := "../a.txt" }]

/-- The rules can be turned around, and the same two of them fail. -/
theorem copy_perm_distantRules :
    let pass := (sampleTemplate.withCopy distantRules.reverse).copy [] [] sampleDisk
    (pass.1.report.failed.map (·.1.target)).Perm ["old.txt/a.txt", "../a.txt"] ∧
      pass.2.top.layout ["app", "src", "b.txt"] = some (.file ⟨#[2]⟩ true) := by
  have hdecided : ∀ r ∈ distantRules, r.Decided sampleTemplate [] [] := by
    have hopen : ∃ opened, Gate.passes [] sampleTemplate.manifest.info [] "" = .ok opened :=
      ⟨true, rfl⟩
    simp only [distantRules, List.forall_mem_cons]
    exact ⟨hopen, hopen, hopen, by simp⟩
  have happart : distantRules.Pairwise (CopyRule.LandApart sampleTemplate) := by
    have hsrc : sampleTemplate.project.containedJoin "src" = some ⟨"/app/src"⟩ := by
      decide +kernel
    have hold : sampleTemplate.project.containedJoin "old.txt/a.txt" =
      some ⟨"/app/old.txt/a.txt"⟩ := by decide +kernel
    have hleaves : sampleTemplate.project.containedJoin "../a.txt" = none := by decide +kernel
    have hrefused (r : CopyRule) :
        r.LandApart sampleTemplate { source := "a.txt", target := "../a.txt" } :=
      fun p p' _ hp' => by cases hleaves.symm.trans hp'
    refine List.pairwise_cons.mpr ⟨?_, List.pairwise_pair.mpr (hrefused _)⟩
    simp only [List.forall_mem_cons]
    refine ⟨fun p p' hp hp' => ?_, hrefused _, by simp⟩
    obtain rfl := Option.some.inj (hsrc.symm.trans hp)
    obtain rfl := Option.some.inj (hold.symm.trans hp')
    decide +kernel
  obtain ⟨-, -, -, hfailed, hsame⟩ := Template.copy_perm beside_sample
    (List.reverse_perm distantRules).symm hdecided happart
  have hforward :
      let pass := (sampleTemplate.withCopy distantRules).copy [] [] sampleDisk
      pass.1.report.failed.map (·.1.target) = ["old.txt/a.txt", "../a.txt"] ∧
        pass.2.top.layout ["app", "src", "b.txt"] = some (.file ⟨#[2]⟩ true) := by
    decide +kernel
  obtain ⟨htargets, hfile⟩ := hforward
  refine ⟨?_, (hsame _).symm.trans hfile⟩
  have hperm := hfailed.symm.map CopyRule.target
  rw [List.map_map, List.map_map] at hperm
  exact hperm.trans (.of_eq htargets)

end Scaffold
