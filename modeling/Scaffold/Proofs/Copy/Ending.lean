import Scaffold.Proofs.Copy.Reading
import Scaffold.Proofs.Disk.Passing
import Scaffold.Proofs.Project.Containment

/-!
# How copying ends

Copying is done along a tour of the source, which comes to an end however links lead
(`tour_walkFrom`). What is copied was walked through at the start. To look at each stop when it is
come to, on the disk with what was copied by then, is another way to copy (`CopiesTree`), and one
that is not bound to end : a source that leads to the project may be copied into itself on and on.
Where the source does not lead to the project, what is to be seen at a stop does not change, and
both ways are the same (`CopyRule.copiesTree_iff`).

Where links lead back below the source, there is a fault among the stops, and copying fails
(`CopyRule.exists_error_of_leadsBack`). `Template.copy_ends` puts this together for a rule that is
run in its turn.
-/

namespace Scaffold

open Scaffold.Path Disk

namespace Disk.Action

/-- Copies one thing that a walk came by. -/
def copyVisit (source target : Path) (v : Visit) : Disk.Action Unit :=
  if v.isDir then makeDirs (target.joinAll v.names)
  else placeFile (source.joinAll v.names) (target.joinAll v.names)

/-- How copying ends that looks at each stop of a tour on the disk as it is when the stop is come
to, with what was copied by then. -/
inductive Copies (source target : Path) : List Stop → Disk → Except Fault Unit × Disk → Prop
  | done {d : Disk} : Copies source target [] d (.ok (), d)
  | fault {s : Stop} {rest : List Stop} {d : Disk} {f : Fault} : s.visit d = .error f →
    Copies source target (s :: rest) d (.error f, d)
  | failed {s : Stop} {rest within : List Stop} {v : Visit} {d d' : Disk} {f : Fault} :
    s.visit d = .ok (v, within) → (copyVisit source target v).perform d = (.error f, d') →
    Copies source target (s :: rest) d (.error f, d')
  | copied {s : Stop} {rest within : List Stop} {v : Visit} {d d' : Disk}
    {out : Except Fault Unit × Disk} : s.visit d = .ok (v, within) →
    (copyVisit source target v).perform d = (.ok (), d') →
    Copies source target (within ++ rest) d' out → Copies source target (s :: rest) d out

/-- How copying a file or a directory ends that looks at each thing when it is come to. -/
inductive CopiesTree (source target : Path) (d : Disk) : Except Fault Unit × Disk → Prop
  | missing {f : Fault} : d.stat source = .error f → CopiesTree source target d (.error f, d)
  | file {l : Location} {n : Node} : d.stat source = .ok (l, n) → n.isDir = false →
    CopiesTree source target d ((placeFile source target).perform d)
  | dir {l l₀ : Location} {n n₀ : Node} {out : Except Fault Unit × Disk} :
    d.stat source = .ok (l, n) → n.isDir = true → d.linkStat source = .ok (l₀, n₀) →
    Copies source target [.start l₀ source] d out → CopiesTree source target d out

variable {source target : Path} {d : Disk}

/-! ## Looking at each stop when it is come to -/

theorem perform_copyVisits_cons (source target : Path) (v : Visit)
    (rest : List (Except Fault Visit)) (d : Disk) :
    (copyVisits source target (.ok v :: rest)).perform d =
      match (copyVisit source target v).perform d with
      | (.ok _, d') => (copyVisits source target rest).perform d'
      | (.error f, d') => (.error f, d') := by
  rw [copyVisits_cons, perform_bind, copyVisit]
  cases ((if v.isDir then makeDirs (target.joinAll v.names)
    else placeFile (source.joinAll v.names) (target.joinAll v.names)).perform d) with
  | mk result d' => cases result <;> rfl

section Copies

variable {s : Stop} {rest within : List Stop} {v : Visit} {d' : Disk} {f : Fault}

theorem copies_fault_iff (hs : s.visit d = .error f) (out : Except Fault Unit × Disk) :
    Copies source target (s :: rest) d out ↔ out = (.error f, d) := by
  constructor
  · intro hout
    cases hout with
    | fault hf =>
      obtain rfl := Except.error.inj (hs.symm.trans hf)
      rfl
    | failed hok => cases hs.symm.trans hok
    | copied hok => cases hs.symm.trans hok
  · rintro rfl
    exact .fault hs

theorem copies_failed_iff (hs : s.visit d = .ok (v, within))
    (hcopy : (copyVisit source target v).perform d = (.error f, d'))
    (out : Except Fault Unit × Disk) :
    Copies source target (s :: rest) d out ↔ out = (.error f, d') := by
  constructor
  · intro hout
    cases hout with
    | fault hf => cases hs.symm.trans hf
    | failed hok hfail =>
      obtain ⟨rfl, rfl⟩ := Prod.mk.inj (Except.ok.inj (hs.symm.trans hok))
      exact hfail.symm.trans hcopy
    | copied hok hdone =>
      obtain ⟨rfl, rfl⟩ := Prod.mk.inj (Except.ok.inj (hs.symm.trans hok))
      cases hdone.symm.trans hcopy
  · rintro rfl
    exact .failed hs hcopy

theorem copies_copied_iff (hs : s.visit d = .ok (v, within))
    (hcopy : (copyVisit source target v).perform d = (.ok (), d'))
    (out : Except Fault Unit × Disk) :
    Copies source target (s :: rest) d out ↔ Copies source target (within ++ rest) d' out := by
  constructor
  · intro hout
    cases hout with
    | fault hf => cases hs.symm.trans hf
    | failed hok hfail =>
      obtain ⟨rfl, rfl⟩ := Prod.mk.inj (Except.ok.inj (hs.symm.trans hok))
      cases hfail.symm.trans hcopy
    | copied hok hdone hout =>
      obtain ⟨rfl, rfl⟩ := Prod.mk.inj (Except.ok.inj (hs.symm.trans hok))
      obtain ⟨-, rfl⟩ := Prod.mk.inj (hdone.symm.trans hcopy)
      exact hout
  · exact .copied hs hcopy

end Copies

/-- When copying does not change what is to be seen at the stops, looking at each of them when it
is come to ends, and ends as copying what a walk has come by at the start. -/
theorem copies_iff {P : Disk → Prop} {p : Path} (hd : d.top.Proper)
    (hvisit : ∀ d', P d' → ∀ s : Stop, s.Sound d p → s.visit d' = s.visit d)
    (hstep : ∀ d', P d' → ∀ v : Visit, (∀ n ∈ v.names, IsName n) →
      P ((copyVisit source target v).perform d').2)
    {stops : List Stop} {vs : List (Except Fault Visit)} (h : Tour d stops vs)
    (hsound : ∀ s ∈ stops, s.Sound d p) {d' : Disk} (hd' : P d') (out : Except Fault Unit × Disk) :
    Copies source target stops d' out ↔ out = (copyVisits source target vs).perform d' := by
  induction h generalizing d' with
  | done =>
    constructor
    · rintro ⟨⟩
      rfl
    · rintro rfl
      exact .done
  | @fault s f rest vs hs _ _ =>
    exact copies_fault_iff ((hvisit d' hd' s (hsound s List.mem_cons_self)).trans hs) out
  | @visit s v within rest vs hs _ ih =>
    have hs₀ := hsound s List.mem_cons_self
    have hs' : s.visit d' = .ok (v, within) := (hvisit d' hd' s hs₀).trans hs
    obtain ⟨l, n, hstat, hv, hwithin⟩ := hs₀.visit_eq_ok hs
    have hnext := hstep d' hd' v (by rw [hv]; exact hs₀.isName)
    have hrest : ∀ s' ∈ within ++ rest, s'.Sound d p := by
      intro s' hs'
      rcases List.mem_append.mp hs' with hs' | hs'
      · exact hs₀.within hd hstat s' (hwithin ▸ hs')
      · exact hsound s' (List.mem_cons_of_mem _ hs')
    rw [perform_copyVisits_cons]
    cases hcopy : (copyVisit source target v).perform d' with
    | mk result d₁ =>
      rw [hcopy] at hnext
      cases result with
      | error f => exact copies_failed_iff hs' hcopy out
      | ok _ => exact (copies_copied_iff hs' hcopy out).trans (ih hrest hnext)

/-- The same for a file or a directory. -/
theorem copiesTree_iff {P : Disk → Prop} (hd : d.top.Proper)
    (hvisit : ∀ d', P d' → ∀ s : Stop, s.Sound d source → s.visit d' = s.visit d)
    (hstep : ∀ d', P d' → ∀ v : Visit, (∀ n ∈ v.names, IsName n) →
      P ((copyVisit source target v).perform d').2)
    (hstart : P d) (out : Except Fault Unit × Disk) :
    CopiesTree source target d out ↔ out = (copyTree source target).perform d := by
  rw [perform_copyTree]
  cases hstat : d.stat source with
  | error f =>
    constructor
    · intro h
      cases h with
      | missing hf => rw [Except.error.inj (hf.symm.trans hstat)]
      | file hok => cases hok.symm.trans hstat
      | dir hok => cases hok.symm.trans hstat
    · rintro rfl
      exact .missing hstat
  | ok found =>
    obtain ⟨l, n⟩ := found
    dsimp only
    cases hdir : n.isDir with
    | false =>
      constructor
      · intro h
        cases h with
        | missing hf => cases hf.symm.trans hstat
        | file => rfl
        | dir hok hn =>
          obtain ⟨rfl, rfl⟩ := Prod.mk.inj (Except.ok.inj (hok.symm.trans hstat))
          cases hn.symm.trans hdir
      · rintro rfl
        exact .file hstat hdir
    | true =>
      obtain ⟨l₀, n₀, h₀, -⟩ := exists_linkStat_of_stat hstat
      have hiff : Copies source target [.start l₀ source] d out ↔
          out = (copyVisits source target (walkFrom d source)).perform d :=
        copies_iff hd hvisit hstep (tour_walkFrom hd h₀)
          (List.forall_mem_singleton.mpr (sound_start h₀ hstat)) hstart out
      constructor
      · intro h
        cases h with
        | missing hf => cases hf.symm.trans hstat
        | file hok hn =>
          obtain ⟨rfl, rfl⟩ := Prod.mk.inj (Except.ok.inj (hok.symm.trans hstat))
          cases hn.symm.trans hdir
        | dir hok hn hlink hcopies =>
          obtain ⟨rfl, rfl⟩ := Prod.mk.inj (Except.ok.inj (hlink.symm.trans h₀))
          exact hiff.mp hcopies
      · exact fun h => .dir hstat hdir h₀ (hiff.mpr h)

/-! ## Links that lead back -/

/-- Copying what a walk has come by fails when there is a fault among it. -/
theorem exists_error_of_mem {f : Fault} : ∀ {vs : List (Except Fault Visit)}, .error f ∈ vs →
    ∀ d : Disk, ∃ f', ((copyVisits source target vs).perform d).1 = .error f'
  | .error g :: _, _, _ => ⟨g, rfl⟩
  | .ok v :: rest, h, d => by
    rw [perform_copyVisits_cons]
    have hrest : .error f ∈ rest := by simpa using h
    cases (copyVisit source target v).perform d with
    | mk result d' =>
      cases result with
      | error g => exact ⟨g, rfl⟩
      | ok _ => exact exists_error_of_mem hrest d'

/-- What links lead back to below a path, the path leads to a directory. -/
theorem isDir_of_leadsBack (h : d.LeadsBack source) {l : Location} {n : Node}
    (hn : d.stat source = .ok (l, n)) : n.isDir = true := by
  obtain ⟨names, more, a, m, m', hne, hnames, -, -, hm⟩ := h
  obtain ⟨first, rest, hall⟩ := List.exists_cons_of_ne_nil
    (List.append_ne_nil_of_right_ne_nil names hne)
  rw [hall] at hnames hm
  have hfirst : IsName first := hnames first List.mem_cons_self
  have hf := follow_of_stat hm
  rw [parts_joinAll _ _ hnames, List.map_cons, List.append_cons] at hf
  obtain ⟨b, c, hb⟩ := exists_follow_of_append (fun x hx => by
    obtain ⟨y, hy, rfl⟩ := List.mem_map.mp hx
    exact hnames y (List.mem_cons_of_mem _ hy)) hf
  obtain ⟨above, entries, habove⟩ := exists_leads_of_follow (c := .name first) hfirst hb
  rw [follow_of_stat hn] at habove
  obtain ⟨-, hentries⟩ := Found.mk.inj (Except.ok.inj habove)
  rw [Option.some.inj hentries]
  rfl

/-- Copying fails when links lead back below the source. -/
theorem exists_error_of_leadsBack (hd : d.top.Proper) (h : d.LeadsBack source) :
    ∃ f, ((copyTree source target).perform d).1 = .error f := by
  rw [perform_copyTree]
  cases hstat : d.stat source with
  | error f => exact ⟨f, rfl⟩
  | ok found =>
    obtain ⟨f, hf⟩ := exists_fault_of_leadsBack hd hstat h
    obtain ⟨l, n⟩ := found
    simp only [isDir_of_leadsBack h hstat, if_true]
    exact exists_error_of_mem hf d

end Disk.Action

variable {t : Template} {r : CopyRule} {answers : AnswerMap} {env : Entries String} {d : Disk}

/-- A rule fails when links lead back below its source. -/
theorem CopyRule.exists_error_of_leadsBack (hd : d.top.Proper)
    (h : d.LeadsBack (t.filesDir.joinAll (namesOf r.source))) :
    ∃ f, ((r.run t).perform d).1 = .error f := by
  rw [CopyRule.perform_run]
  cases hpaths : r.paths t with
  | error f => exact ⟨f, rfl⟩
  | ok paths =>
    obtain ⟨source, target⟩ := paths
    obtain ⟨rfl, rfl⟩ := CopyRule.paths_eq_ok hpaths
    exact Action.exists_error_of_leadsBack hd h

/-! ## A project that the source does not lead to -/

/-- Copying one thing below a project changes nothing outside of it. -/
theorem Confined.copyVisit {place? : Option Location} {old : Disk} (h : Confined t place? old d)
    (hr : t.Rooted d) (source : Path) {dest : List String} (hdest : ∀ n ∈ dest, IsName n)
    {v : Visit} (hv : ∀ n ∈ v.names, IsName n) :
    let d' := ((Action.copyVisit source (t.project.joinAll dest) v).perform d).2
    Confined t place? old d' ∧ t.Rooted d' := by
  have hall := List.forall_mem_append.mpr ⟨hdest, hv⟩
  rw [Action.copyVisit, ← joinAll_append]
  cases v.isDir with
  | true => exact h.makeDirs hr hall (parts_joinAll _ _ hall ▸ List.prefix_rfl)
  | false =>
    have hshape : ∀ e e' : Disk, e = e' ∧ Confined t place? old e ∧ t.Rooted e →
        e.shape = e'.shape := fun _ _ he => he.1 ▸ rfl
    have hkeeps : Action.Keeps (fun e e' => e = e' ∧ Confined t place? old e ∧ t.Rooted e)
        (Action.placeFile (source.joinAll v.names) (t.project.joinAll (dest ++ v.names))) := by
      refine Action.keeps_placeFile hshape ?_ ?_
      · rintro above habove e _ ⟨rfl, he, hre⟩
        obtain ⟨c, hc⟩ := exists_of_parent?_eq_some habove
        refine ⟨rfl, he.makeDirs hre hall ?_⟩
        rw [← parts_joinAll _ _ hall, hc]
        exact List.prefix_append ..
      · rintro e _ ⟨rfl, he, hre⟩
        exact ⟨rfl, he.copyFile hre _ hall⟩
    exact (hkeeps d d ⟨rfl, h, hr⟩).2

/-- The path that a rule copies from ends in a name. -/
theorem filesDir_ends_in_name (t : Template) (r : CopyRule) : ∃ (q : Path) (name : String),
    t.filesDir.joinAll (namesOf r.source) = q.join name ∧ IsName name := by
  cases hnames : namesOf r.source using List.reverseRecOn with
  | nil => exact ⟨t.directory, "template", rfl, by decide⟩
  | append_singleton names name =>
    have hmem : name ∈ namesOf r.source := by simp [hnames]
    exact ⟨t.filesDir.joinAll names, name, joinAll_concat .., isName_of_mem_namesOf hmem⟩

/-- Copying to a project that the source does not lead to may look at each thing when it is come
to : it ends, and ends in the same way. -/
theorem CopyRule.copiesTree_iff {source target : Path} (hpaths : r.paths t = .ok (source, target))
    (hd : d.top.Proper) {place : Location} (hproject : d.Leads t.project.parts place)
    (hfree : ∀ below link, d.top.layout (place ++ below) ≠ some (.link link))
    (hap : ∀ names, (∀ n ∈ names, IsName n) → ∀ l, d.Passes (source.joinAll names) l →
      ¬place <+: l) (out : Except Fault Unit × Disk) :
    Action.CopiesTree source target d out ↔ out = (Action.copyTree source target).perform d := by
  obtain ⟨rfl, rfl⟩ := CopyRule.paths_eq_ok hpaths
  have hstart : Confined t (some place) d d ∧ t.Rooted d := by
    obtain ⟨entries, hleads⟩ := hproject
    refine ⟨⟨rfl, .refl _, hd, fun l hl => (hl rfl).elim, fun place' hplace below link => ?_,
      fun found hfound => ?_⟩, Or.inr ⟨place, _, hleads⟩⟩
    · obtain rfl := Option.some.inj hplace
      exact hfree below link
    · rw [hleads] at hfound
      rw [← Except.ok.inj hfound]
  have hvisit : ∀ d', Confined t (some place) d d' ∧ t.Rooted d' → ∀ s : Stop,
      s.Sound d (t.filesDir.joinAll (namesOf r.source)) → s.visit d' = s.visit d := by
    rintro d' ⟨hconf, -⟩ s hs
    have halike : AlikeOutside place d d' :=
      { here := hconf.here
        proper := hd
        proper' := hconf.proper
        same := fun l hl => by
          by_contra hne
          obtain ⟨place', hplace, hpre⟩ := hconf.below l hne
          obtain rfl := Option.some.inj hplace
          exact hl hpre
        free := hfree
        dir := hproject.layout
        dir' := hconf.grows.dir hproject.layout }
    exact halike.visit (filesDir_ends_in_name t r) hs (hs.path_eq ▸ hap s.names hs.isName)
  have hstep : ∀ d', Confined t (some place) d d' ∧ t.Rooted d' → ∀ v : Visit,
      (∀ n ∈ v.names, IsName n) →
      let d₁ := ((Action.copyVisit (t.filesDir.joinAll (namesOf r.source))
        (t.project.joinAll (namesOf r.destination)) v).perform d').2
      Confined t (some place) d d₁ ∧ t.Rooted d₁ := fun d' h v hv =>
    h.1.copyVisit h.2 _ (fun _ => isName_of_mem_namesOf) hv
  exact Action.copiesTree_iff hd hvisit hstep hstart out

/-! ## A template -/

/-- Copying ends, however links lead. When a rule is run, the walk from its source is a tour that
ends, without a bound on how many links it follows. When no path below the source passes what is
at or below the project, which has no links, copying may look at each thing at the time when it is
come to : it ends then as well, and in no other way. When following links from the source leads
back to a directory that it is in, the rule is reported as failed in its turn, whatever else it
has copied, and only then does the walk report a cycle. -/
theorem Template.copy_ends (t : Template) (answers : AnswerMap) (env : Entries String) {d : Disk}
    (hd : d.top.Proper) {before after : List CopyRule} {r : CopyRule}
    (hrules : t.manifest.copy = before ++ r :: after) (hrun : r.IsRun t answers env before d) :
    let source := t.filesDir.joinAll (namesOf r.source)
    let now := t.after answers env before d
    (∀ l n, now.linkStat source = .ok (l, n) → Tour now [.start l source] (walkFrom now source)) ∧
    (∀ target place, r.paths t = .ok (source, target) → now.Leads t.project.parts place →
      (∀ below link, now.top.layout (place ++ below) ≠ some (.link link)) →
      (∀ names, (∀ n ∈ names, IsName n) → ∀ l, now.Passes (source.joinAll names) l →
        ¬place <+: l) →
      ∀ out, Action.CopiesTree source target now out ↔
        out = (Action.copyTree source target).perform now) ∧
    (now.LeadsBack source → ∃ (f : Fault) (report more : CopyReport),
      (t.withCopy before).copy answers env d = ({ report }, now) ∧
      (t.copy answers env d).1.report =
        { report with failed := report.failed ++ [(r, f)] }.append more) ∧
    ∀ found path ancestor, now.stat source = .ok found →
      .error (.cycle path ancestor) ∈ walkFrom now source → now.LeadsBack source := by
  intro source now
  have hnow : now.top.Proper := (t.fed_after answers env hd before).proper
  refine ⟨fun l n h => tour_walkFrom hnow h, fun target place hpaths hproject hfree hap out =>
    CopyRule.copiesTree_iff hpaths hnow hproject hfree hap out, fun hback => ?_,
    fun found path ancestor hfound hcycle => leadsBack_of_cycle hnow hfound hcycle⟩
  obtain ⟨f, hf⟩ := CopyRule.exists_error_of_leadsBack hnow hback
  obtain ⟨report, more, hbefore, hreport⟩ := copy_of_run_error hrules hrun hf
  exact ⟨f, report, more, hbefore, hreport⟩

/-- A directory with a link to itself. -/
def roundDocs : Node := .dir [("a.txt", .file ⟨#[1]⟩ false), ("again", .link ".")]

/-- A disk with a project, and a template with the directory. -/
def roundDisk : Disk :=
  { top := .dir [("app", .dir []), ("tpl", .dir [("template", .dir [("docs", roundDocs)])])] }

/-- A template that copies the directory with the link. -/
def roundTemplate : Template where
  name := "tpl"
  directory := ⟨"/tpl"⟩
  project := ⟨"/app"⟩
  manifest := { copy := [{ source := "docs" }] }

theorem proper_roundDisk : roundDisk.top.Proper := by
  have hdocs : roundDocs.Proper := by
    refine .dir (by decide +kernel) (by decide) ?_
    simp only [List.forall_mem_cons]
    exact ⟨.file _ _, .link _, by simp⟩
  refine .dir (by decide +kernel) (by decide) ?_
  simp only [List.forall_mem_cons]
  refine ⟨Node.proper_emptyDir, .dir (by simp) (by simp; decide) ?_, by simp⟩
  simp only [List.forall_mem_cons]
  refine ⟨.dir (by simp) (by simp; decide) ?_, by simp⟩
  simpa using hdocs

/-- The only link of the template leads to where it is. -/
theorem links_roundDisk (r : Location) (target : String)
    (h : roundDisk.top.layout (["tpl", "template", "docs"] ++ r) = some (.link target)) :
    (stepsOf target).1 = false ∧ .up ∉ (stepsOf target).2 := by
  have hdocs : roundDisk.top.at? ["tpl", "template", "docs"] = some roundDocs := rfl
  rw [Node.layout_append hdocs] at h
  cases r with
  | nil => cases h
  | cons name r =>
    rw [Node.layout_child, Node.child?, roundDocs, Node.entries, Entries.get?, Entries.get?] at h
    split at h
    · cases r <;> cases h
    · split at h
      · cases r with
        | nil =>
          obtain rfl := Item.link.inj (Option.some.inj h)
          decide +kernel
        | cons _ _ => cases h
      · cases h

/-- What paths below the directory with the link pass is not in the project. -/
theorem passes_roundDisk {names : List String} (hnames : ∀ n ∈ names, IsName n) {l : Location}
    (h : roundDisk.Passes (roundTemplate.filesDir.joinAll ("docs" :: names)) l) :
    ¬["app"] <+: l := by
  have hall : ∀ n ∈ "template" :: "docs" :: names, IsName n := by
    simpa using ⟨by decide, by decide, hnames⟩
  have hroot : (⟨"/tpl"⟩ : Path).parts = [.root, .name "tpl"] := by decide +kernel
  have hparts : (roundTemplate.filesDir.joinAll ("docs" :: names)).parts =
      [.root, .name "tpl"] ++ ("template" :: "docs" :: names).map Part.name := by
    rw [← hroot, ← parts_joinAll _ _ hall]
    rfl
  rw [Passes, hparts, stepsOfParts_names] at h
  have hway : roundDisk.top.Passes [] (["tpl", "template", "docs"].map Step.name ++
    names.map Step.name) l := h
  intro happ
  rcases hway.of_names rfl with hpre | hbelow
  · exact absurd (happ.trans hpre) (by decide)
  · have hin := hbelow.stays links_roundDisk List.prefix_rfl (by simp)
    rcases List.prefix_or_prefix_of_prefix happ hin with hpre | hpre
    · exact absurd hpre (by decide)
    · exact absurd hpre (by decide)

/-- Copying the directory ends, and the rule fails. -/
theorem copy_ends_round :
    (∃ out, Action.CopiesTree (roundTemplate.filesDir.joinAll ["docs"])
      (roundTemplate.project.joinAll ["docs"]) roundDisk out) ∧
    ∃ f, ({ source := "docs" }, f) ∈ (roundTemplate.copy [] [] roundDisk).1.report.failed := by
  have hfiles : roundTemplate.filesDir.joinAll ["docs"] = ⟨"/tpl/template/docs"⟩ := by
    decide +kernel
  have hnames : namesOf "docs" = ["docs"] := by decide +kernel
  have hpaths : CopyRule.paths roundTemplate { source := "docs" } =
      .ok (roundTemplate.filesDir.joinAll ["docs"], roundTemplate.project.joinAll ["docs"]) := by
    decide +kernel
  have hproject : roundDisk.Leads roundTemplate.project.parts ["app"] := ⟨[], rfl⟩
  have hafter : roundTemplate.after [] [] [] roundDisk = roundDisk := by
    rw [after_nil, Action.makeDirs_of_leads hproject]
  have hrules : roundTemplate.manifest.copy = [] ++ { source := "docs" } :: [] := rfl
  obtain ⟨-, hends, hfails, -⟩ := roundTemplate.copy_ends [] [] proper_roundDisk hrules ⟨rfl, rfl⟩
  rw [hafter, hnames] at hends hfails
  have hfree : ∀ below link, roundDisk.top.layout (["app"] ++ below) ≠ some (.link link) := by
    intro below link h
    cases below <;> cases h
  have hback : roundDisk.LeadsBack (roundTemplate.filesDir.joinAll ["docs"]) := by
    have hagain : (⟨"/tpl/template/docs"⟩ : Path).joinAll ([] ++ ["again"]) =
        ⟨"/tpl/template/docs/again"⟩ := by decide +kernel
    refine ⟨[], ["again"], ["tpl", "template", "docs"], roundDocs, roundDocs, by simp,
      by simp; decide, rfl, ?_, ?_⟩
    · rw [hfiles]
      rfl
    · rw [hfiles, hagain]
      rfl
  obtain ⟨f, report, more, -, hreport⟩ := hfails hback
  refine ⟨⟨_, (hends _ ["app"] hpaths hproject hfree (fun names hn l hl => ?_) _).mpr rfl⟩, f, ?_⟩
  · exact passes_roundDisk hn hl
  · rw [hreport]
    simp [CopyReport.append]

end Scaffold
