import Scaffold.Proofs.Copy.Again
import Scaffold.Proofs.Fill.Failed
import Scaffold.Proofs.Gate.Words
import Scaffold.Proofs.Project.Containment

/-!
# A template next to a project

`Template.Apart` says that a template and a project do not overlap and have no links, on whatever
path the project is and whether there are files to copy or not. Then all that a pass over copy
rules relies on is there once the directory of the project is made (`Template.Beside.site`), and
filling keeps it (`Disk.Site.fill`).

When each fill rule has a copy rule with the same gate that copies the file, and all that is
copied is text, then filling can only fail for what is written in the files. The two gates are
decided in the same way (`Gate.passes_eq`), the file of an open one is there since no rule took it
away again (`Template.Copied.exists_file`), and what is filled stays text. So the files are what
can be filled from one fill rule to the next (`Fillable`), and nothing but rendering is left to
fail (`Template.fill_of_copied`).
-/

namespace Scaffold

open Scaffold.Path Disk

/-- A disk once the directory of a project is made, as far as it can be made. -/
def Template.made (t : Template) (d : Disk) : Disk := ((Action.makeDirs t.project).perform d).2

/-- Whether the files of a template and a project do not overlap and have no links, once the
directory of the project is made. -/
structure Template.Apart (t : Template) (d : Disk) : Prop where
  /-- The directory that paths start from is there. -/
  here : d.top.layout d.here = some .dir
  proper : d.top.Proper
  project : ∀ place ∈ t.place? d, ∀ r target, d.top.layout (place ++ r) ≠ some (.link target)
  files : ∀ l n, (t.made d).stat t.filesDir = .ok (l, n) →
    ∀ r target, n.layout r ≠ some (.link target)
  diverge : ∀ place ∈ t.place? d, ∀ l n, (t.made d).stat t.filesDir = .ok (l, n) →
    ¬l <+: place ∧ ¬place <+: l

/-- Whether the files of a template and a project can be told apart once the directory of the
project is made : neither has links, in whatever order directories are listed, and they do not
overlap. -/
structure Template.Beside (t : Template) (d : Disk) : Prop where
  /-- The directory that paths start from is there. -/
  here : d.top.layout d.here = some .dir
  project : ∀ place ∈ t.place? d, ∀ r target, d.top.layout (place ++ r) ≠ some (.link target)
  files : ∀ l n, (t.made d).stat t.filesDir = .ok (l, n) → n.Plain
  diverge : ∀ place ∈ t.place? d, ∀ l n, (t.made d).stat t.filesDir = .ok (l, n) →
    ¬l <+: place ∧ ¬place <+: l

variable {t : Template} {d d' : Disk} {files project : Location} {source : Node}
  {answers : AnswerMap} {env : Entries String}

/-! ## The site -/

/-- Where a path leads somewhere all its double dots do. -/
theorem upsLead_of_leads {p : Path} {l : Location} (h : d.Leads p.parts l) :
    Action.UpsLead d p.parts := by
  rintro above ⟨rest, hrest⟩
  have hsteps : ∀ c ∈ rest, c.IsStep := fun c =>
    isStep_of_parts_append hrest.symm (List.append_ne_nil_of_right_ne_nil above (by simp))
  rw [← hrest] at h
  cases rest with
  | nil => exact ⟨l, by rwa [List.append_nil] at h⟩
  | cons c rest =>
    obtain ⟨entries, hf⟩ := h
    rw [List.append_cons] at hf
    obtain ⟨l', n', hf'⟩ :=
      exists_follow_of_append (fun c' hc' => hsteps c' (List.mem_cons_of_mem c hc')) hf
    exact exists_leads_of_follow (hsteps c List.mem_cons_self) hf'

theorem Template.Apart.beside (h : t.Apart d) : t.Beside d where
  here := h.here
  project := h.project
  files l n hfiles := by
    have hproper := (Action.makes_makeDirs t.project d).proper h.proper
    exact (hproper.at? (at?_of_stat hfiles)).plain (h.files l n hfiles)
  diverge := h.diverge

/-- Once the project is made its path leads to it. -/
theorem Template.Beside.exists_leads (h : t.Beside d)
    (hd : ((Action.makeDirs t.project).perform d).1 = .ok ()) :
    ∃ project ∈ t.place? d, (t.made d).Leads t.project.parts project := by
  have hm := Action.makes_makeDirs t.project d
  have hmade : (Action.makeDirs t.project).perform d = (.ok (), t.made d) := Prod.ext hd rfl
  have hleads : ∃ l, (t.made d).Leads t.project.parts l := by
    rcases Action.exists_leads_of_makeDirs hmade with hnil | hleads
    · have hhere : (t.made d).top.layout (t.made d).here = some .dir := by
        have hsame : (t.made d).here = d.here := hm.here
        rw [hsame]
        exact hm.grows.dir h.here
      obtain ⟨entries, he⟩ := Node.layout_eq_dir.mp hhere
      refine ⟨(t.made d).here, entries, ?_⟩
      rw [hnil, ← he]
      rfl
    · exact hleads
  obtain ⟨l, entries, hl⟩ := hleads
  refine ⟨l, ?_, entries, hl⟩
  have hplace : t.place? d = some l := by
    rw [Template.place?]
    change ((t.made d).follow true t.project.parts).toOption.map (·.location) = some l
    rw [hl]
    rfl
  rw [hplace]
  rfl

/-- Once the project is made the rules can be run. -/
theorem Template.Beside.site (h : t.Beside d)
    (hd : ((Action.makeDirs t.project).perform d).1 = .ok ())
    (hfiles : (t.made d).stat t.filesDir = .ok (files, source)) :
    ∃ project ∈ t.place? d, Site t files project source (t.made d) := by
  have hm := Action.makes_makeDirs t.project d
  obtain ⟨project, hproject, hleads⟩ := h.exists_leads hd
  obtain ⟨hdiverge, hdiverge'⟩ := h.diverge project hproject files source hfiles
  refine ⟨project, hproject, hleads, upsLead_of_leads hleads, fun r target hlink => ?_, hfiles,
    h.files files source hfiles, hdiverge, hdiverge'⟩
  exact h.project project hproject r target (hm.layout_of_ne_dir (by simp) hlink)

/-- What names below a project lead to. -/
theorem Disk.Site.stat_project (h : Site t files project source d) {names : List String}
    (hnames : ∀ n ∈ names, IsName n) {bytes : ByteArray} {executable : Bool}
    (hfile : d.top.layout (project ++ names) = some (.file bytes executable)) :
    d.stat (t.project.joinAll names) = .ok (project ++ names, .file bytes executable) := by
  have hne : names ≠ [] := by
    rintro rfl
    rw [List.append_nil, h.leads.layout] at hfile
    cases hfile
  obtain ⟨entries, hf⟩ := h.leads
  rw [stat_joinAll_of_follow hf h.free hnames hne, Node.layout_eq_file.mp hfile]

/-- A fill rule that succeeds replaces the content of a file of the project by text. -/
theorem Disk.Site.fill (h : Site t files project source d) {r : FillRule} {c : Context}
    (hd : r.run t c d = .ok d') :
    Site t files project source d' ∧ d.top.layout.Grows d'.top.layout ∧ d'.here = d.here ∧
      (d.top.Proper → d'.top.Proper) ∧ ∃ (bytes : ByteArray) (executable : Bool) (text : String),
        d.top.layout (project ++ namesOf r.file) = some (.file bytes executable) ∧
        d'.top.layout =
          d.top.layout.set (project ++ namesOf r.file) (.file text.toUTF8 executable) := by
  have hnames : ∀ n ∈ namesOf r.file, IsName n := fun _ => isName_of_mem_namesOf
  obtain ⟨l, bytes, executable, text, -, hstat, -, rfl⟩ := FillRule.renders hd
  obtain rfl : l = project ++ namesOf r.file := by
    refine resolve_joinAll (fun found hfound => ?_) h.free hnames (stat_eq_ok.mp hstat)
    obtain ⟨entries, hf⟩ := h.leads
    rw [hf] at hfound
    rw [← Except.ok.inj hfound]
  obtain ⟨hlay, hg, hproper⟩ := stored_of_resolve (stat_eq_ok.mp hstat) rfl text.toUTF8 executable
  refine ⟨h.of_grows hg rfl ?_ fun l target hl => ?_, hg, rfl, hproper, bytes, executable, text,
    Node.layout_eq_file.mpr (at?_of_stat hstat), hlay⟩
  · rw [Node.at?_put_of_diverging _ _ (fun hp => h.diverge' ((List.prefix_append ..).trans hp))
      (h.not_files_isPrefix _)]
    exact at?_of_stat h.stat
  · rw [hlay, Layout.set] at hl
    split at hl
    · cases hl
    · exact hl

/-! ## What was copied -/

/-- What a clean pass over the copy rules of a template leads to. -/
structure Template.Copied (t : Template) (answers : AnswerMap) (env : Entries String)
    (files project : Location) (source : Node) (old d : Disk) : Prop where
  site : Site t files project source d
  here : d.here = old.here
  grows : old.top.layout.Grows d.top.layout
  proper : d.top.Proper
  /-- Each rule with an open gate can be run once more. -/
  hasRun : ∀ r ∈ t.manifest.copy, r.applies t answers env = true →
    r.HasRun t files project source d
  below : d.top.layout.below project =
    (t.manifest.copy.filter (·.applies t answers env)).foldl (CopyRule.overlay source.layout)
      (old.top.layout.below project)
  beside : ∀ l, ¬project <+: l → ¬l <+: project → d.top.layout l = old.top.layout l

/-- Once the directory of the project is made, copying is a pass over the rules. -/
theorem Template.copy_eq (hd : ((Action.makeDirs t.project).perform d).1 = .ok ()) :
    t.copy answers env d = copyRules t answers env t.manifest.copy {} (t.made d) := by
  have hmade : (Action.makeDirs t.project).perform d = (.ok (), t.made d) := Prod.ext hd rfl
  rw [Template.copy, hmade]

/-- A clean pass that starts on a proper site. -/
theorem Disk.Site.copied (h : Site t files project source d) {report : CopyReport}
    (hreport : (Scaffold.copyRules t answers env t.manifest.copy {} d).1.result = .ok report)
    (hclean : report.isClean = true) (hd : d.top.Proper) :
    t.Copied answers env files project source d
        (Scaffold.copyRules t answers env t.manifest.copy {} d).2 ∧
      report.applied = t.manifest.copy.filter (·.applies t answers env) := by
  obtain ⟨hsite, happlied, hbelow, hbeside⟩ := h.copyRules hreport hclean
  obtain ⟨hgrows, hhere, hrun⟩ := hasRun_of_copyRules h hreport hclean
  have hproper : (Scaffold.copyRules t answers env t.manifest.copy {} d).2.top.Proper :=
    copyRules_invariant answers env (P := fun d' => d'.top.Proper)
      (fun r d' hd' => (CopyRule.fed_run t r hd').proper) t.manifest.copy {} hd
  exact ⟨⟨hsite, hhere, hgrows, hproper, hrun, hbelow, hbeside⟩, happlied⟩

/-- A clean pass over the rules of a template next to a project. -/
theorem Template.Apart.copied (h : t.Apart d) {report : CopyReport}
    (hreport : (t.copy answers env d).1.result = .ok report) (hclean : report.isClean = true)
    (hfiles : (t.made d).stat t.filesDir = .ok (files, source)) :
    ∃ project ∈ t.place? d, Site t files project source (t.made d) ∧
      t.Copied answers env files project source (t.made d) (t.copy answers env d).2 ∧
      report.applied = t.manifest.copy.filter (·.applies t answers env) := by
  obtain ⟨hd, -⟩ := decided_of_result_eq_ok hreport
  have hm := Action.makes_makeDirs t.project d
  obtain ⟨project, hproject, hsite⟩ := h.beside.site hd hfiles
  rw [t.copy_eq hd] at hreport ⊢
  exact ⟨project, hproject, hsite, hsite.copied hreport hclean (hm.proper h.proper)⟩

/-- What is below a path is below a directory, or the path leads to it. -/
theorem exists_stat_of_joinAll {p : Path} (hp : p.text ≠ "") {names : List String}
    (hnames : ∀ n ∈ names, IsName n) {l : Location} {n : Node}
    (h : d.stat (p.joinAll names) = .ok (l, n)) : ∃ l' n', d.stat p = .ok (l', n') := by
  cases names with
  | nil => exact ⟨l, n, h⟩
  | cons name names =>
    have hsteps : ∀ c ∈ names.map Part.name, c.IsStep := fun c hc => by
      obtain ⟨m, hm, rfl⟩ := List.mem_map.mp hc
      exact hnames m (List.mem_cons_of_mem name hm)
    have hf := follow_of_stat h
    rw [parts_joinAll p _ hnames, List.map_cons, List.append_cons] at hf
    obtain ⟨l₁, n₁, hf₁⟩ := exists_follow_of_append hsteps hf
    obtain ⟨l', entries, hf'⟩ :=
      exists_leads_of_follow (c := .name name) (hnames name List.mem_cons_self) hf₁
    exact ⟨l', .dir entries, stat_eq_ok.mpr (resolve_of_follow hp hf')⟩

/-- Paths below one root that are the same have the same names. -/
theorem joinAll_inj {p : Path} {a b : List String} (ha : ∀ n ∈ a, IsName n)
    (hb : ∀ n ∈ b, IsName n) (h : p.joinAll a = p.joinAll b) : a = b := by
  have hparts := congrArg parts h
  rw [parts_joinAll p a ha, parts_joinAll p b hb, List.append_cancel_left_eq] at hparts
  exact List.map_injective_iff.mpr (fun _ _ => Part.name.inj) hparts

/-- The file that a rule with an open gate copies is there after a clean pass. It need not have
been copied by that rule in the end, but it was by one that was applied. -/
theorem Template.Copied.exists_file {old : Disk} (hold : Site t files project source old)
    (h : t.Copied answers env files project source old d) {r : CopyRule}
    (hr : r ∈ t.manifest.copy) (hopen : r.applies t answers env = true) {m : Location}
    {content : ByteArray} {x : Bool}
    (hsource : old.stat (t.filesDir.joinAll (namesOf r.source)) = .ok (m, .file content x)) :
    ∃ bytes executable,
      d.top.layout (project ++ namesOf r.destination) = some (.file bytes executable) ∧
      ∃ c ∈ t.manifest.copy.filter (·.applies t answers env), ∃ l, c.Sees t old l bytes := by
  have hnames (relative : String) : ∀ n ∈ namesOf relative, IsName n :=
    fun _ => isName_of_mem_namesOf
  obtain ⟨-, hat⟩ := stat_joinAll hold.stat hold.plain.layout_ne_link (hnames r.source) hsource
  have hlay := Node.layout_eq_file.mpr hat
  -- The rule itself has put a file there, which nothing has taken away since.
  obtain ⟨before, after, hbefore, hrun, hgrows, -⟩ := h.hasRun r hr hopen
  obtain ⟨-, hmount⟩ := hbefore.run hrun
  have hput : after.top.layout (project ++ namesOf r.destination) = some (.file content x) := by
    have htop := Layout.mount_append (project ++ namesOf r.destination)
      (source.layout.below (namesOf r.source)) before.top.layout []
    rw [List.append_nil] at htop
    rw [hmount, htop, Layout.below, List.append_nil, hlay, Option.some_or]
  obtain ⟨bytes, executable, hfile⟩ := hgrows.file hput
  refine ⟨bytes, executable, hfile, ?_⟩
  have hwrites : r.Writes source.layout (namesOf r.destination) :=
    Or.inl ⟨[], (List.append_nil _).symm, by simp [hlay]⟩
  obtain ⟨i, hi, hfrom⟩ := overlay_of_written
    ⟨r, List.mem_filter.mpr ⟨hr, hopen⟩, hwrites⟩
  have hthere := congrFun h.below (namesOf r.destination)
  rw [Layout.below, hi, hfile] at hthere
  obtain rfl := Option.some.inj hthere
  rcases hfrom with hdir | ⟨c, hc, s, -, hs⟩
  · cases hdir
  · have hplain := hold.plain.isName (by rw [hs]; exact Option.some_ne_none _)
    have hstat := hold.stat_files hplain (Node.layout_eq_file.mp hs)
    rw [joinAll_append] at hstat
    exact ⟨c, hc, _, s, executable, (List.forall_mem_append.mp hplain).2, hstat⟩

/-! ## Filling what was copied -/

/-- Whether a disk has a file with text where a fill rule expects one. -/
def FillRule.Fillable (project : Location) (r : FillRule) (d : Disk) : Prop :=
  ∃ bytes executable text, d.top.layout (project ++ namesOf r.file) =
    some (.file bytes executable) ∧ String.fromUTF8? bytes = some text

/-- Filling other files, or the same one, keeps a file one that can be filled. -/
theorem FillRule.Fillable.fill (h : Site t files project source d) {r r' : FillRule} {c : Context}
    (hr : r.Fillable project d) (hd : r'.run t c d = .ok d') : r.Fillable project d' := by
  obtain ⟨-, -, -, -, old, executable', new, -, hlay⟩ := h.fill hd
  obtain ⟨bytes, executable, text, hfile, htext⟩ := hr
  unfold FillRule.Fillable
  rw [hlay, Layout.set]
  split
  · exact ⟨new.toUTF8, executable', new, rfl, fromUTF8?_toUTF8 new⟩
  · exact ⟨bytes, executable, text, hfile, htext⟩

/-- A rule whose file can be filled fails in rendering alone. -/
theorem FillRule.Fillable.run_error (h : Site t files project source d) {r : FillRule}
    {c : Context} {path : Path} (hpath : t.project.containedJoin r.file = some path)
    (hr : r.Fillable project d) {f : Failure} (hd : r.run t c d = .error f) :
    ∃ cause, f = .fill r.file (.stencil cause) := by
  obtain ⟨bytes, executable, text, hfile, htext⟩ := hr
  have hstat := h.stat_project (fun _ => isName_of_mem_namesOf) hfile
  rw [← eq_joinAll_of_containedJoin hpath] at hstat
  rw [FillRule.run_eq, hpath] at hd
  simp only [hstat, htext] at hd
  cases hrender : FillRule.render c text with
  | error cause =>
    rw [hrender] at hd
    exact ⟨cause, (Except.error.inj hd).symm⟩
  | ok out =>
    rw [hrender] at hd
    cases hd

/-- Whether a copy rule brings the file of a fill rule : they have the same gate, and the file of
the one is the destination of the other, whose source is a file. -/
def CopyRule.Brings (t : Template) (d : Disk) (r : FillRule) (c : CopyRule) : Prop :=
  c.gate = r.gate ∧
    (∃ path, t.project.containedJoin c.destination = some path ∧
      t.project.containedJoin r.file = some path) ∧
    ∃ path l bytes executable, t.filesDir.containedJoin c.source = some path ∧
      (t.made d).stat path = .ok (l, .file bytes executable)

/-- When each fill rule sees no values of its own and has a copy rule that brings its file, and all
that is copied is text, then filling after a clean pass over the copy rules fails for nothing but
what is written in a file : its gate is decided, its file is inside the project and can be read
and written. -/
theorem Template.fill_of_copied {report : CopyReport} {f : Failure} (h : t.Apart d)
    (hrules : ∀ r ∈ t.manifest.fill, r.vars = [] ∧ ∃ c ∈ t.manifest.copy, c.Brings t d r)
    (hreport : (t.copy answers env d).1.result = .ok report) (hclean : report.isClean = true)
    (htexts : ∀ c ∈ report.applied, ∀ l bytes, c.Sees t (t.made d) l bytes →
      ∃ text, String.fromUTF8? bytes = some text)
    (hfill : (t.fill answers env (t.copy answers env d).2).1 = .error f) :
    ∃ r ∈ t.manifest.fill, ∃ cause, f = .fill r.file (.stencil cause) := by
  obtain ⟨before, r, after, all, hsplit, hbefore, hfails⟩ := exists_fails_of_fillRules hfill
  have hmem {r' : FillRule} (hr' : r' ∈ before) : r' ∈ t.manifest.fill := by
    rw [hsplit]
    exact List.mem_append_left _ hr'
  have hr : r ∈ t.manifest.fill := by
    rw [hsplit]
    exact List.mem_append_right _ List.mem_cons_self
  have hnames (relative : String) : ∀ n ∈ namesOf relative, IsName n :=
    fun _ => isName_of_mem_namesOf
  -- There are files to copy, since the failing rule has one.
  obtain ⟨files, source, hfiles⟩ : ∃ files source,
      (t.made d).stat t.filesDir = .ok (files, source) := by
    obtain ⟨-, c, -, -, -, path, l, bytes, executable, hpath, hstat⟩ := hrules r hr
    rw [eq_joinAll_of_containedJoin hpath] at hstat
    exact exists_stat_of_joinAll (text_join_ne t.directory (c := .name "template")
      (show IsName "template" by decide))
      (hnames c.source) hstat
  obtain ⟨project, -, hmade, hcopied, happlied⟩ := h.copied hreport hclean hfiles
  obtain ⟨-, hdecided⟩ := decided_of_result_eq_ok hreport
  have hgate {r : FillRule} {c : CopyRule} (hvars : r.vars = []) (hsame : c.gate = r.gate) :
      Gate.evaluate (r.context t answers env) r.gate =
        Gate.passes answers t.manifest.info env c.gate := by
    rw [Gate.passes_eq, hsame, FillRule.context, hvars]
  have hfillable : ∀ r ∈ t.manifest.fill, r.isOpen t answers env = true →
      r.Fillable project (t.copy answers env d).2 := fun r hr hopen => by
    obtain ⟨hvars, c, hc, hsame, ⟨path, hdest, hfile⟩, path', l, bytes, executable, hsource,
      hstat⟩ := hrules r hr
    have hopen : c.applies t answers env = true := by
      rw [FillRule.isOpen, hgate hvars hsame] at hopen
      exact hopen
    rw [eq_joinAll_of_containedJoin hsource] at hstat
    obtain ⟨b, x, hthere, c', hc', l', hsees⟩ := hcopied.exists_file hmade hc hopen hstat
    obtain ⟨text, htext⟩ := htexts c' (happlied ▸ hc') l' b hsees
    have heq : namesOf c.destination = namesOf r.file := joinAll_inj (hnames _) (hnames _)
      ((eq_joinAll_of_containedJoin hdest).symm.trans (eq_joinAll_of_containedJoin hfile))
    exact ⟨b, x, text, heq ▸ hthere, htext⟩
  -- What can be filled can still be filled when some of it was.
  obtain ⟨hsite, hfillable⟩ : Site t files project source
      (t.fill answers env (t.copy answers env d).2).2 ∧
      ∀ r ∈ t.manifest.fill, r.isOpen t answers env = true →
        r.Fillable project (t.fill answers env (t.copy answers env d).2).2 :=
    fillRules_invariant (P := fun d' => Site t files project source d' ∧
      ∀ r ∈ t.manifest.fill, r.isOpen t answers env = true → r.Fillable project d') []
      (fun r' _ _ d₁ d₂ hrun hd => ⟨(hd.1.fill hrun).1,
        fun r hr hopen => (hd.2 r hr hopen).fill hd.1 hrun⟩) ⟨hcopied.site, hfillable⟩
  obtain ⟨hvars, c, hc, hsame, ⟨path, -, hfile⟩, -⟩ := hrules r hr
  refine ⟨r, hr, ?_⟩
  rcases hfails with ⟨cause, hundecided, -⟩ | ⟨hopen, hrun⟩
  · obtain ⟨opened, hopened⟩ := hdecided c hc
    rw [hgate hvars hsame, hopened] at hundecided
    cases hundecided
  · have hopen : r.isOpen t answers env = true := by simp [FillRule.isOpen, hopen]
    exact (hfillable r hr hopen).run_error hsite hfile hrun

/-! ## A template with one file -/

/-- The files of a template with one file. -/
def oneFile (text : String) : Node := .dir [("a.txt", .file text.toUTF8 false)]

/-- A disk with such a template and an empty project. -/
def oneFileDisk (text : String) : Disk :=
  { top := .dir [("app", .dir []), ("tpl", .dir [("template", oneFile text)])] }

/-- A template that copies its file and fills it. -/
def oneFileTemplate : Template where
  name := "tpl"
  directory := ⟨"/tpl"⟩
  project := ⟨"/app"⟩
  manifest := { copy := [{ source := "a.txt" }], fill := [{ file := "a.txt" }] }

theorem proper_oneFile (text : String) : (oneFile text).Proper :=
  .dir (by simp) (by simp; decide) (by simpa using .file _ _)

theorem proper_oneFileDisk (text : String) : (oneFileDisk text).top.Proper := by
  have hsorted : ["app", "tpl"].Pairwise (· < ·) := by decide +kernel
  refine .dir hsorted (by simp; decide) ?_
  simp only [List.forall_mem_cons]
  refine ⟨Node.proper_emptyDir, .dir (by simp) (by simp; decide) ?_, by simp⟩
  simpa using proper_oneFile text

theorem oneFile_layout {text : String} {r : Location} {i : Item}
    (h : (oneFile text).layout r = some i) : i = .dir ∨ i = .file text.toUTF8 false := by
  cases r with
  | nil => exact Or.inl (Option.some.inj h).symm
  | cons name rest =>
    obtain ⟨n, hn, hrest⟩ := (Node.layout_cons name rest _ i).mp h
    rw [Entries.get?] at hn
    split at hn
    · obtain rfl := Option.some.inj hn
      cases rest with
      | nil => exact Or.inr (Option.some.inj hrest).symm
      | cons => cases hrest
    · cases hn

theorem stat_oneFile (text : String) :
    (oneFileTemplate.made (oneFileDisk text)).stat oneFileTemplate.filesDir =
      .ok (["tpl", "template"], oneFile text) := by
  have h : oneFileTemplate.filesDir = ⟨"/tpl/template"⟩ := by decide +kernel
  rw [h]
  rfl

theorem place?_oneFile (text : String) :
    oneFileTemplate.place? (oneFileDisk text) = some ["app"] := rfl

theorem apart_oneFile (text : String) : oneFileTemplate.Apart (oneFileDisk text) where
  here := rfl
  proper := proper_oneFileDisk text
  project place hplace r target := by
    rw [place?_oneFile] at hplace
    obtain rfl := Option.some.inj hplace
    have hat : (oneFileDisk text).top.at? ["app"] = some (.dir []) := rfl
    rw [Node.layout_append hat]
    cases r <;> simp [Node.layout, Node.at?, Node.child?, Node.entries, Node.item]
  files l n hstat r target hlink := by
    rw [stat_oneFile] at hstat
    obtain ⟨-, rfl⟩ := Prod.mk.inj (Except.ok.inj hstat)
    rcases oneFile_layout hlink with h | h <;> cases h
  diverge place hplace l n hstat := by
    rw [place?_oneFile] at hplace
    obtain rfl := Option.some.inj hplace
    rw [stat_oneFile] at hstat
    obtain ⟨rfl, -⟩ := Prod.mk.inj (Except.ok.inj hstat)
    exact ⟨by decide, by decide⟩

/-- What the rules of the template see is its file. -/
theorem sees_oneFile {text : String} {c : CopyRule} {l : Location} {bytes : ByteArray}
    (h : c.Sees oneFileTemplate (oneFileTemplate.made (oneFileDisk text)) l bytes) :
    bytes = text.toUTF8 := by
  obtain ⟨names, x, hnames, hstat⟩ := h
  have hall : ∀ n ∈ namesOf c.source ++ names, IsName n :=
    List.forall_mem_append.mpr ⟨fun _ => isName_of_mem_namesOf, hnames⟩
  rw [← joinAll_append] at hstat
  have hfree : ∀ r target, (oneFile text).layout r ≠ some (.link target) := fun r target hr => by
    rcases oneFile_layout hr with h | h <;> cases h
  obtain ⟨-, hat⟩ := stat_joinAll (stat_oneFile text) hfree hall hstat
  rcases oneFile_layout (Node.layout_eq_file.mpr hat) with h | h
  · cases h
  · exact (Item.file.inj h).1

theorem brings_oneFile (text : String) :
    CopyRule.Brings oneFileTemplate (oneFileDisk text) { file := "a.txt" } { source := "a.txt" } := by
  have hproject : oneFileTemplate.project.containedJoin "a.txt" = some ⟨"/app/a.txt"⟩ := by
    decide +kernel
  have hsource : oneFileTemplate.filesDir.containedJoin "a.txt" =
      some ⟨"/tpl/template/a.txt"⟩ := by decide +kernel
  exact ⟨rfl, ⟨_, hproject, hproject⟩, _, _, _, _, hsource, rfl⟩

/-- A file that is no template is copied, and then filling fails for it. -/
theorem fill_of_copied_oneFile : ∃ f cause,
    let d := oneFileDisk "\x7b% if %\x7d"
    (oneFileTemplate.fill [] [] (oneFileTemplate.copy [] [] d).2).1 = .error f ∧
      f = .fill "a.txt" (.stencil cause) := by
  have hclean : ((oneFileTemplate.copy [] [] (oneFileDisk "\x7b% if %\x7d")).1.result.toOption.map
      (·.failed)) = some [] := by decide +kernel
  have hfails : (oneFileTemplate.fill [] [] (oneFileTemplate.copy [] []
      (oneFileDisk "\x7b% if %\x7d")).2).1.toOption = none := by decide +kernel
  cases hreport : (oneFileTemplate.copy [] [] (oneFileDisk "\x7b% if %\x7d")).1.result with
  | error f =>
    rw [hreport] at hclean
    cases hclean
  | ok report =>
    rw [hreport] at hclean
    cases hfill : (oneFileTemplate.fill [] [] (oneFileTemplate.copy [] []
        (oneFileDisk "\x7b% if %\x7d")).2).1 with
    | ok filled =>
      rw [hfill] at hfails
      cases hfails
    | error f =>
      obtain ⟨r, hr, cause, hcause⟩ := Template.fill_of_copied (apart_oneFile _)
        (fun r hr => by
          obtain rfl := List.mem_singleton.mp hr
          exact ⟨rfl, _, List.mem_singleton_self _, brings_oneFile _⟩)
        hreport (List.isEmpty_iff.mpr (Option.some.inj hclean))
        (fun c _ l bytes hsees => ⟨_, sees_oneFile hsees ▸ fromUTF8?_toUTF8 _⟩) hfill
      obtain rfl := List.mem_singleton.mp hr
      exact ⟨f, cause, hfill, hcause⟩

end Scaffold
