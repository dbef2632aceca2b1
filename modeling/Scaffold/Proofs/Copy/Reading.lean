import Scaffold.Proofs.Copy.Keeping
import Scaffold.Proofs.Copy.Pass
import Scaffold.Proofs.Disk.Listing

/-!
# What a pass over copy rules reads

The contents that a rule writes are those of files that it `Sees` : files that paths below its
source lead to. Links are followed, so such a file may be anywhere on the disk ; without links
it is below the files of the template. Two disks that differ only in the contents of files that
are not read are the same to a pass. It reports the same on both of them, and leaves the same
contents where they were the same (`Template.copy_reads`).

Both halves are said about one rule first (`CopyRule.fed_run`, `CopyRule.agrees_run`). A path
leads to the same location from the start of a rule to its end, as nothing that is there goes
away. So what a rule reads at some moment is what it sees at the start.
-/

namespace Scaffold

open Scaffold.Path Disk

/-- Whether a rule sees a file with some bytes : a path below its source leads to it. -/
def CopyRule.Sees (t : Template) (r : CopyRule) (d : Disk) (l : Location)
    (bytes : ByteArray) : Prop :=
  ∃ (names : List String) (executable : Bool), (∀ n ∈ names, IsName n) ∧
    d.stat ((t.filesDir.joinAll (namesOf r.source)).joinAll names) =
      .ok (l, .file bytes executable)

/-- Whether a pass over rules reads a file with some bytes : when a rule is run, it sees it. -/
def Template.Reads (t : Template) (answers : AnswerMap) (env : Entries String)
    (rules : List CopyRule) (d : Disk) (l : Location) (bytes : ByteArray) : Prop :=
  ∃ before r, before ++ [r] <+: rules ∧ r.IsRun t answers env before d ∧
    r.Sees t (t.after answers env before d) l bytes

/-- Whether a path below the project leads to a location. -/
def Template.Reaches (t : Template) (d : Disk) (l : Location) : Prop :=
  ∃ (names : List String) (n : Node), (∀ name ∈ names, IsName name) ∧
    d.stat (t.project.joinAll names) = .ok (l, n)

/-- Whether a disk is an older one with files from some source : what was there stays, no links
are added, and the contents of files are old ones or those of the source. A file of the source
that can be reached from the project may be emptied, when it is copied over itself. -/
structure Fed (t : Template) (source : Location → ByteArray → Prop) (old d : Disk) : Prop where
  here : d.here = old.here
  grows : old.top.layout.Grows d.top.layout
  proper : d.top.Proper
  links : ∀ l target, d.top.layout l = some (.link target) →
    old.top.layout l = some (.link target)
  files : ∀ l bytes executable, d.top.layout l = some (.file bytes executable) →
    old.top.layout l = some (.file bytes executable) ∨
      ∃ m content, source m content ∧
        (bytes = content ∨ bytes = ByteArray.empty ∧ t.Reaches d m)

/-- Whether two disks come from two others in the same way : they have one shape, and are the
same where those were. -/
structure Agrees (old old' d d' : Disk) : Prop where
  shape : d.shape = d'.shape
  same : ∀ l, old.top.layout l = old'.top.layout l → d.top.layout l = d'.top.layout l

variable {t : Template} {r : CopyRule} {answers : AnswerMap} {env : Entries String}

theorem Template.Reaches.of_grows {d d' : Disk} (hg : d.top.layout.Grows d'.top.layout)
    (hhere : d'.here = d.here) {l : Location} (h : t.Reaches d l) : t.Reaches d' l := by
  obtain ⟨names, n, hnames, hstat⟩ := h
  obtain ⟨n', hstat'⟩ := exists_stat_of_grows hg hhere hstat
  exact ⟨names, n', hnames, hstat'⟩

/-! ## Where contents come from -/

namespace Fed

variable {source source' : Location → ByteArray → Prop} {old d d' : Disk}

theorem refl (hd : d.top.Proper) : Fed t source d d :=
  ⟨rfl, .refl _, hd, fun _ _ h => h, fun _ _ _ h => Or.inl h⟩

theorem mono (h : Fed t source old d) (hs : ∀ l bytes, source l bytes → source' l bytes) :
    Fed t source' old d :=
  { h with
    files := fun l bytes executable hl => (h.files l bytes executable hl).imp_right
      fun ⟨m, content, hm, hbytes⟩ => ⟨m, content, hs m content hm, hbytes⟩ }

theorem trans (h : Fed t source old d) (h' : Fed t source d d') : Fed t source old d' := by
  refine ⟨h'.here.trans h.here, h.grows.trans h'.grows, h'.proper, fun l target hl =>
    h.links l target (h'.links l target hl), fun l bytes executable hl => ?_⟩
  rcases h'.files l bytes executable hl with hl | hnew
  · refine (h.files l bytes executable hl).imp_right ?_
    rintro ⟨m, content, hm, hbytes⟩
    exact ⟨m, content, hm, hbytes.imp_right
      (And.imp_right fun hreach => hreach.of_grows h'.grows h'.here)⟩
  · exact Or.inr hnew

/-- Making directories writes no file. -/
theorem makeDirs (hd : d.top.Proper) (p : Path) :
    Fed t source d ((Action.makeDirs p).perform d).2 := by
  have hm := Action.makes_makeDirs p d
  exact ⟨hm.here, hm.grows, hm.proper hd, fun l target => hm.layout_of_ne_dir (by simp),
    fun l bytes executable hl => Or.inl (hm.layout_of_ne_dir (by simp) hl)⟩

/-- What a rule reads it has seen at its start, at the same location. -/
theorem exists_sees (h : Fed t (r.Sees t old) old d) {names : List String}
    (hnames : ∀ n ∈ names, IsName n) {found : Location × Node}
    (hold : old.stat ((t.filesDir.joinAll (namesOf r.source)).joinAll names) = .ok found)
    {l : Location} {bytes : ByteArray} {executable : Bool}
    (hstat : d.stat ((t.filesDir.joinAll (namesOf r.source)).joinAll names) =
      .ok (l, .file bytes executable)) :
    ∃ content x, r.Sees t old l content ∧ old.top.layout l = some (.file content x) := by
  obtain ⟨m, n⟩ := found
  obtain ⟨n', hstat'⟩ := exists_stat_of_grows h.grows h.here hold
  rw [hstat] at hstat'
  obtain ⟨rfl, -⟩ := Prod.mk.inj (Except.ok.inj hstat')
  have hn : old.top.at? l = some n := at?_of_stat hold
  have hsome : old.top.layout l ≠ none := by
    rw [Node.layout, hn]
    exact Option.some_ne_none _
  obtain ⟨content, x, hfile⟩ := h.grows.file_of_ne_none hsome
    (Node.layout_eq_file.mpr (at?_of_stat hstat))
  obtain rfl := Option.some.inj (hn.symm.trans (Node.layout_eq_file.mp hfile))
  exact ⟨content, x, ⟨names, x, hnames, hold⟩, hfile⟩

/-- Copying a file that a rule sees. -/
theorem copyFile (h : Fed t (r.Sees t old) old d) {sub names : List String}
    (hsub : ∀ n ∈ sub, IsName n) (hnames : ∀ n ∈ names, IsName n) {found : Location × Node}
    (hold : old.stat ((t.filesDir.joinAll (namesOf r.source)).joinAll sub) = .ok found) :
    Fed t (r.Sees t old) old ((Action.copyFile
      ((t.filesDir.joinAll (namesOf r.source)).joinAll sub) (t.project.joinAll names)).perform d).2 := by
  cases hc : (Action.copyFile ((t.filesDir.joinAll (namesOf r.source)).joinAll sub)
    (t.project.joinAll names)).perform d with
  | mk result d' =>
    cases result with
    | error f =>
      rw [Action.copyFile_eq_error hc]
      exact h
    | ok _ =>
      obtain ⟨l, bytes, x, place, hstat, hplace, hfile, rfl⟩ := Action.copyFile_eq_ok hc
      generalize hcopied : (if place.location = l then ByteArray.empty else bytes) = copied
      obtain ⟨hlay, hg, hproper⟩ := stored_of_resolve hplace hfile copied x
      obtain ⟨content, x', hsees, hlold⟩ := h.exists_sees hsub hold hstat
      have hl := Node.layout_eq_file.mpr (at?_of_stat hstat)
      have hmono : ∀ m, t.Reaches d m →
          t.Reaches { d with top := d.top.put (some (.file copied x)) place.location } m := by
        intro m hm
        refine hm.of_grows ?_ ?_
        · exact hg
        · rfl
      refine h.trans ⟨rfl, hg, hproper h.proper, fun m target hm => ?_, fun m b y hm => ?_⟩
      · rw [hlay, Layout.set] at hm
        split at hm
        · cases hm
        · exact hm
      · rw [hlay, Layout.set] at hm
        split at hm
        · obtain ⟨rfl, rfl⟩ := Item.file.inj (Option.some.inj hm)
          refine Or.inr ?_
          split at hcopied
          · rename_i hself
            have hreach : t.Reaches d l := by
              obtain ⟨place, n⟩ := place
              obtain rfl : n = d.top.at? place := node_of_resolve hplace
              obtain rfl : place = l := hself
              rw [at?_of_stat hstat] at hplace
              exact ⟨names, _, hnames, stat_eq_ok.mpr hplace⟩
            exact ⟨l, content, hsees, Or.inr ⟨hcopied.symm, hmono l hreach⟩⟩
          · subst hcopied
            rcases h.files l bytes x hl with hsame | ⟨m, content, hm, hbytes⟩
            · rw [hlold] at hsame
              obtain ⟨rfl, -⟩ := Item.file.inj (Option.some.inj hsame)
              exact ⟨l, content, hsees, Or.inl rfl⟩
            · exact ⟨m, content, hm, hbytes.imp_right (And.imp_right (hmono m))⟩
        · exact Or.inl hm

end Fed

/-- A rule writes what it sees at its start. -/
theorem CopyRule.fed_run (t : Template) (r : CopyRule) {d : Disk} (hd : d.top.Proper) :
    Fed t (r.Sees t d) d ((r.run t).perform d).2 :=
  CopyRule.run_invariant (P := Fed t (r.Sees t d) d) (.refl hd) hd
    (fun p _ _ _ _ h => h.trans (.makeDirs h.proper p))
    fun _ _ _ hsub hnames hstat _ h => h.copyFile hsub hnames hstat

/-! ## Two disks -/

namespace Agrees

variable {old old' d d' e e' : Disk}

theorem refl (h : d.shape = d'.shape) : Agrees d d' d d' := ⟨h, fun _ hl => hl⟩

theorem trans (h : Agrees old old' d d') (h' : Agrees d d' e e') : Agrees old old' e e' :=
  ⟨h'.shape, fun l hl => h'.same l (h.same l hl)⟩

/-- Making directories on two disks of one shape makes the same ones. -/
theorem makeDirs (h : d.shape = d'.shape) (p : Path) :
    Agrees d d' ((Action.makeDirs p).perform d).2 ((Action.makeDirs p).perform d').2 := by
  obtain ⟨-, hshape⟩ := (Action.blind_makeDirs p).eq_of_shape h
  have hm := Action.makes_makeDirs p d
  have hm' := Action.makes_makeDirs p d'
  refine ⟨hshape, fun l hl => ?_⟩
  by_cases hsome : d.top.layout l = none
  · have hnew := layout_of_shape hshape l
    by_cases hsame : ((Action.makeDirs p).perform d).2.top.layout l = d.top.layout l
    · rw [hsame, hsome] at hnew ⊢
      exact (Option.map_eq_none_iff.mp hnew.symm).symm
    · rw [(hm.made l hsame).1] at hnew ⊢
      have hmade : ((Action.makeDirs p).perform d').2.top.layout l ≠ d'.top.layout l := by
        rw [← hl, hsome]
        intro hnone
        rw [hnone] at hnew
        cases hnew
      rw [(hm'.made l hmade).1]
  · rw [hm.old l hsome, hm'.old l (hl ▸ hsome), hl]

/-- Copying a file whose content is the same on both disks. -/
theorem copyFile (h : d.shape = d'.shape) {p q : Path}
    (hp : ∀ l bytes executable, d.stat p = .ok (l, .file bytes executable) →
      d.top.layout l = d'.top.layout l) :
    Agrees d d' ((Action.copyFile p q).perform d).2 ((Action.copyFile p q).perform d').2 := by
  obtain ⟨hresult, hshape⟩ := (Action.blind_copyFile p q).eq_of_shape h
  refine ⟨hshape, fun l hl => ?_⟩
  cases hc : (Action.copyFile p q).perform d with
  | mk result e =>
    cases hc' : (Action.copyFile p q).perform d' with
    | mk result' e' =>
      rw [hc, hc'] at hresult
      obtain rfl : result = result' := hresult
      cases result with
      | error f => rwa [Action.copyFile_eq_error hc, Action.copyFile_eq_error hc']
      | ok _ =>
        obtain ⟨m, bytes, x, place, hstat, hplace, hfile, rfl⟩ := Action.copyFile_eq_ok hc
        obtain ⟨m', bytes', x', place', hstat', hplace', hfile', rfl⟩ :=
          Action.copyFile_eq_ok hc'
        obtain ⟨n, hn, -⟩ := stat_of_shape h hstat
        obtain ⟨rfl, -⟩ := Prod.mk.inj (Except.ok.inj (hstat'.symm.trans hn))
        obtain ⟨n', hn'⟩ := resolve_of_shape h hplace
        have hlocation : place'.location = place.location := by
          rw [Except.ok.inj (hplace'.symm.trans hn')]
        have hsame := hp _ bytes x hstat
        rw [Node.layout_eq_file.mpr (at?_of_stat hstat),
          Node.layout_eq_file.mpr (at?_of_stat hstat')] at hsame
        obtain ⟨rfl, rfl⟩ := Item.file.inj (Option.some.inj hsame)
        dsimp only
        rw [(stored_of_resolve hplace hfile _ x).1, (stored_of_resolve hplace' hfile' _ x).1,
          hlocation, Layout.set, Layout.set, hl]

end Agrees

theorem Template.Reads.mono {rules more : List CopyRule} {d : Disk} {l : Location}
    {bytes : ByteArray} (hrules : rules <+: more) (h : t.Reads answers env rules d l bytes) :
    t.Reads answers env more d l bytes := by
  obtain ⟨before, r, hpre, hrun⟩ := h
  exact ⟨before, r, hpre.trans hrules, hrun⟩

/-- Rules write what they read. -/
theorem Template.fed_after (t : Template) (answers : AnswerMap) (env : Entries String)
    {d : Disk} (hd : d.top.Proper) (rules : List CopyRule) :
    Fed t (t.Reads answers env rules d) d (t.after answers env rules d) := by
  induction rules using List.reverseRecOn with
  | nil =>
    rw [after_nil]
    exact .makeDirs hd t.project
  | append_singleton before r ih =>
    have hold := ih.mono fun l bytes h => h.mono (List.prefix_append before [r])
    by_cases hrun : r.IsRun t answers env before d
    · rw [after_concat_of_isRun hrun]
      refine hold.trans ((CopyRule.fed_run t r ih.proper).mono fun l bytes h => ?_)
      exact ⟨before, r, List.prefix_rfl, hrun, h⟩
    · rw [after_concat_of_not_isRun hrun]
      exact hold

end Scaffold
