import Scaffold.Proofs.Copy.Actions
import Scaffold.Proofs.Copy.Mount

/-!
# Where files are copied

`Site` is what a pass over copy rules relies on : the files and the project are trees without
links that do not overlap. Each action of a pass keeps this, and what it does to the layout is
known : making directories (`Site.makeDirs`) and placing a file (`Site.placeFile`) place one
item below the project, and copying a tree mounts it (`Site.copyTree`).
-/

namespace Scaffold

open Scaffold.Path

namespace Disk

namespace Action

/-- A file that is copied under a name in a directory stands there, in the place of an older one. -/
theorem stored_of_copyFile {source p : Path} {n : String} (hn : IsName n) {d d' : Disk}
    {above : Location} (hleads : d.Leads p.parts above)
    (hlink : ∀ target, d.top.layout (above ++ [n]) ≠ some (.link target))
    (h : (copyFile source (p.join n)).perform d = (.ok (), d')) :
    ∃ l bytes executable copied, d.stat source = .ok (l, .file bytes executable) ∧
      (above ++ [n] ≠ l → copied = bytes) ∧ d'.here = d.here ∧
      d'.top = d.top.put (some (.file copied executable)) (above ++ [n]) ∧
      d.top.layout.Grows d'.top.layout ∧
      d'.top.layout = d.top.layout.set (above ++ [n]) (.file copied executable) := by
  obtain ⟨l, bytes, executable, ⟨place, old⟩, hstat, hfound, hfile, rfl⟩ := copyFile_eq_ok h
  have hjoin := resolve_join d true p (c := .name n) hn
  rw [hleads.follow_name hn true hlink] at hjoin
  obtain ⟨rfl, rfl⟩ := Found.mk.inj (Except.ok.inj (hfound.symm.trans hjoin))
  obtain ⟨hlay, hg, -⟩ := stored_of_resolve hfound hfile
    (if above ++ [n] = l then ByteArray.empty else bytes) executable
  exact ⟨l, bytes, executable, _, hstat, fun hne => if_neg hne, rfl, rfl, hg, hlay⟩

end Action

/-- What there is to copy from and to : the files at one location, and a project at another one,
which neither overlap nor have links. -/
structure Site (t : Template) (files project : Location) (source : Node) (d : Disk) : Prop where
  /-- The path of the project leads to it. -/
  leads : d.Leads t.project.parts project
  ups : Action.UpsLead d t.project.parts
  free : ∀ r target, d.top.layout (project ++ r) ≠ some (.link target)
  /-- The path of the files leads to them. -/
  stat : d.stat t.filesDir = .ok (files, source)
  plain : source.Plain
  diverge : ¬files <+: project
  diverge' : ¬project <+: files

namespace Site

variable {t : Template} {files project : Location} {source : Node} {d d' : Disk}

theorem not_files_isPrefix (h : Site t files project source d) (r : Location) :
    ¬files <+: project ++ r := fun hp =>
  (List.prefix_or_prefix_of_prefix hp (List.prefix_append project r)).elim h.diverge h.diverge'

/-- Storing more, but not among the files and no links, keeps the site. -/
theorem of_grows (h : Site t files project source d) (hg : d.top.layout.Grows d'.top.layout)
    (hhere : d'.here = d.here) (hsource : d'.top.at? files = some source)
    (hfree : ∀ l target, d'.top.layout l = some (.link target) →
      d.top.layout l = some (.link target)) :
    Site t files project source d' where
  leads := h.leads.of_grows hg hhere
  ups above ha := by
    obtain ⟨l, hl⟩ := h.ups above ha
    exact ⟨l, hl.of_grows hg hhere⟩
  free r target hl := h.free r target (hfree _ target hl)
  stat := stat_of_grows hg hhere h.stat hsource
  plain := h.plain
  diverge := h.diverge
  diverge' := h.diverge'

/-- Names after the path of the project lead nowhere up. -/
theorem upsLead_append (h : Site t files project source d) (names : List String) :
    Action.UpsLead d (t.project.parts ++ names.map Part.name) := by
  intro above ha
  rcases List.prefix_or_prefix_of_prefix ha (List.prefix_append ..) with hpre | ⟨rest, hrest⟩
  · exact h.ups above hpre
  · have hnames : rest <+: names.map Part.name := by
      rwa [← hrest, List.prefix_append_right_inj] at ha
    rcases List.eq_nil_or_concat' rest with rfl | ⟨rest', c, rfl⟩
    · exact h.ups above (hrest ▸ by simp)
    · have hc : c = .up := by
        rw [← List.append_assoc] at hrest
        exact List.singleton_inj.mp (List.append_inj' hrest rfl).2
      obtain ⟨n, -, hn⟩ := List.mem_map.mp (hnames.subset (List.mem_concat_self (a := c)))
      rw [hc] at hn
      cases hn

/-- Making directories below the project. -/
theorem makeDirs (h : Site t files project source d) {p : Path} {names : List String}
    (hp : p.parts = t.project.parts ++ names.map Part.name) (hnames : ∀ n ∈ names, IsName n)
    (hd : (Action.makeDirs p).perform d = (.ok (), d')) :
    Site t files project source d' ∧ d'.Leads p.parts (project ++ names) ∧
      d'.top.layout = d.top.layout.withDirs (project ++ names) := by
  have hup : Action.UpsLead d p.parts := hp ▸ h.upsLead_append names
  obtain ⟨hmade, hleads⟩ := Action.made_makeDirs hup hd
  have hproject := h.leads.of_grows hmade.grows hmade.here
  obtain ⟨l, hl⟩ : ∃ l, d'.Leads p.parts l := by
    by_cases hempty : p.text = ""
    · have hnil : p.parts = [] := by rw [parts, hempty]; rfl
      rw [hnil] at hp
      refine ⟨project, ?_⟩
      rw [hnil, ← (List.append_eq_nil_iff.mp hp.symm).1]
      exact hproject
    · exact hleads hempty
  have hlay := hmade.layout l hl
  have hfree : ∀ l' target, d'.top.layout l' = some (.link target) →
      d.top.layout l' = some (.link target) := fun l' target hl' => by
    rw [hlay, Layout.withDirs] at hl'
    split at hl'
    · cases hl'
    · exact hl'
  have heq : l = project ++ names := by
    rw [hp] at hl
    exact hl.eq_append (fun l' hl' => hl'.unique hproject)
      (fun r target hl' => h.free r target (hfree _ target hl')) hnames
  subst heq
  refine ⟨h.of_grows hmade.grows hmade.here (hmade.kept _ _ (at?_of_stat h.stat) fun r => ?_) hfree,
    hl, hlay⟩
  rw [hlay, Layout.withDirs, if_neg]
  exact fun hp => h.not_files_isPrefix names ((List.prefix_append files r).trans hp)

/-- The project itself is a directory, over which no file is copied. -/
theorem not_placeFile (h : Site t files project source d) {p : Path} :
    (Action.placeFile p t.project).perform d ≠ (.ok (), d') := by
  intro hd
  obtain ⟨d₁, hmade, hnone, hcopy⟩ := Action.placeFile_eq_ok hd
  have hleads : d₁.Leads t.project.parts project := by
    cases hp : t.project.parent? with
    | none => rw [hnone hp]; exact h.leads
    | some above =>
      obtain ⟨c, hc⟩ := exists_of_parent?_eq_some hp
      have hup : Action.UpsLead d above.parts := fun a ha =>
        h.ups a (hc ▸ ha.trans (List.prefix_append ..))
      have hm := (Action.made_makeDirs hup (hmade above hp)).1
      exact h.leads.of_grows hm.grows hm.here
  obtain ⟨l, bytes, executable, ⟨l', n⟩, -, hfound, hfile, -⟩ :=
    Action.copyFile_eq_ok hcopy
  obtain ⟨entries, hf⟩ := hleads
  rw [resolve_of_follow (text_ne_of_resolve hfound) hf] at hfound
  obtain ⟨-, rfl⟩ := Found.mk.inj (Except.ok.inj hfound)
  cases hfile

theorem not_link_concat (h : Site t files project source d) (above : List String)
    (n target : String) : d.top.layout (project ++ above ++ [n]) ≠ some (.link target) := by
  rw [List.append_assoc]
  exact h.free _ target

/-- A file is placed below the project on a site that has the directories above it. -/
theorem exists_site_of_placeFile (h : Site t files project source d) {p : Path}
    {above : List String} {n : String} (habove : ∀ m ∈ above, IsName m) (hn : IsName n)
    (hd : (Action.placeFile p (t.project.joinAll (above ++ [n]))).perform d = (.ok (), d')) :
    ∃ d₁, (Action.makeDirs (ofParts (t.project.joinAll above).parts)).perform d = (.ok (), d₁) ∧
      Site t files project source d₁ ∧
      d₁.Leads (t.project.joinAll above).parts (project ++ above) ∧
      d₁.top.layout = d.top.layout.withDirs (project ++ above) ∧
      (Action.copyFile p ((t.project.joinAll above).join n)).perform d₁ = (.ok (), d') := by
  rw [Action.placeFile_joinAll p t.project above hn] at hd
  obtain ⟨_, d₁, hmade, hcopy⟩ := Action.bind_eq_ok hd
  have hq := parts_ofParts (areParts_parts (t.project.joinAll above))
  obtain ⟨h₁, hleads, hlay₁⟩ :=
    h.makeDirs (hq.trans (parts_joinAll t.project above habove)) habove hmade
  rw [hq] at hleads
  exact ⟨d₁, hmade, h₁, hleads, hlay₁, hcopy⟩

/-- Placing a file of the template below the project. -/
theorem placeFile (h : Site t files project source d) {sub names : List String}
    (hsub : ∀ n ∈ sub, IsName n) (hnames : ∀ n ∈ names, IsName n)
    (hd : (Action.placeFile (t.filesDir.joinAll sub) (t.project.joinAll names)).perform d =
      (.ok (), d')) :
    Site t files project source d' ∧ ∃ bytes executable,
      source.at? sub = some (.file bytes executable) ∧
        d'.top.layout = d.top.layout.place (project ++ names) (.file bytes executable) := by
  rcases List.eq_nil_or_concat' names with rfl | ⟨above, n, rfl⟩
  · exact (h.not_placeFile hd).elim
  have hn : IsName n := hnames n (by simp)
  have habove : ∀ m ∈ above, IsName m := fun m hm => hnames m (List.mem_append_left _ hm)
  obtain ⟨d₁, -, h₁, hleads, hlay₁, hcopy⟩ := h.exists_site_of_placeFile habove hn hd
  obtain ⟨l, bytes, executable, copied, hstat, hcopied, hhere, htop, hg, hlay⟩ :=
    Action.stored_of_copyFile hn hleads (h₁.not_link_concat above n) hcopy
  obtain ⟨rfl, hbytes⟩ := stat_joinAll h₁.stat h₁.plain.layout_ne_link hsub hstat
  have hapart : ¬files <+: project ++ above ++ [n] := by
    rw [List.append_assoc]
    exact h.not_files_isPrefix _
  -- The copy is not made over the file itself, since the files are no part of the project.
  obtain rfl := hcopied fun heq => hapart (by rw [heq]; exact List.prefix_append ..)
  refine ⟨h₁.of_grows hg hhere ?_ fun l target hl => ?_, copied, executable, hbytes, ?_⟩
  · rw [htop, Node.at?_put_of_diverging _ _ (fun hp => h.diverge' ?_) hapart]
    · exact at?_of_stat h₁.stat
    · rw [List.append_assoc] at hp
      exact (List.prefix_append ..).trans hp
  · rw [hlay, Layout.set] at hl
    split at hl
    · cases hl
    · exact hl
  · rw [hlay, hlay₁, Layout.set_withDirs, List.append_assoc]

/-- Copying items of a tree in the template places them below the project. -/
theorem copyVisits (h : Site t files project source d) {sub names : List String}
    (hsub : ∀ n ∈ sub, IsName n) (hnames : ∀ n ∈ names, IsName n) {tree : Node}
    (htree : source.at? sub = some tree) {items : List (Location × Item)}
    (hitems : ∀ e ∈ items, tree.layout e.1 = some e.2)
    (hd : (Action.copyVisits (t.filesDir.joinAll sub) (t.project.joinAll names)
      (items.map (visitOf []))).perform d = (.ok (), d')) :
    Site t files project source d' ∧ d'.top.layout =
      items.foldl (fun layout e => layout.place (project ++ names ++ e.1) e.2) d.top.layout := by
  induction items generalizing d with
  | nil =>
    obtain ⟨-, rfl⟩ := Prod.mk.inj hd
    exact ⟨h, rfl⟩
  | cons e items ih =>
    obtain ⟨r, i⟩ := e
    have hr : tree.layout r = some i := hitems _ List.mem_cons_self
    have hplain : tree.Plain := h.plain.at? htree
    have hrnames : ∀ n ∈ r, IsName n := hplain.isName (by rw [hr]; exact Option.some_ne_none _)
    have hall : ∀ n ∈ names ++ r, IsName n := List.forall_mem_append.mpr ⟨hnames, hrnames⟩
    obtain ⟨d₁, hfirst, hrest⟩ := Action.copyVisits_eq_ok hd
    simp only [← joinAll_append, List.nil_append] at hfirst
    have hstep : Site t files project source d₁ ∧
        d₁.top.layout = d.top.layout.place (project ++ names ++ r) i := by
      cases i with
      | dir =>
        have hparts := parts_joinAll t.project _ hall
        obtain ⟨h₁, -, hlay⟩ := h.makeDirs hparts hall hfirst
        rw [hlay, Layout.withDirs_eq_place, List.append_assoc]
        exact ⟨h₁, rfl⟩
      | file bytes executable =>
        have hsub' : ∀ n ∈ sub ++ r, IsName n := List.forall_mem_append.mpr ⟨hsub, hrnames⟩
        obtain ⟨h₁, b, x, hat, hlay⟩ := h.placeFile hsub' hall hfirst
        rw [Node.at?_append, htree, Option.bind_some, Node.layout_eq_file.mp hr] at hat
        obtain ⟨rfl, rfl⟩ := Node.file.inj (Option.some.inj hat)
        rw [hlay, List.append_assoc]
        exact ⟨h₁, rfl⟩
      | link target => exact (hplain.layout_ne_link r target hr).elim
    obtain ⟨h₁, hlay⟩ := hstep
    obtain ⟨h', hlay'⟩ := ih h₁ (fun e he => hitems e (List.mem_cons_of_mem _ he)) hrest
    refine ⟨h', ?_⟩
    rw [hlay', hlay, List.foldl_cons]

/-- Copying a tree of the template mounts it below the project. -/
theorem copyTree (h : Site t files project source d) {sub names : List String}
    (hsub : ∀ n ∈ sub, IsName n) (hnames : ∀ n ∈ names, IsName n)
    (hd : (Action.copyTree (t.filesDir.joinAll sub) (t.project.joinAll names)).perform d =
      (.ok (), d')) :
    Site t files project source d' ∧ d'.top.layout =
      d.top.layout.mount (project ++ names) (source.layout.below sub) := by
  unfold Action.copyTree at hd
  obtain ⟨⟨l, n⟩, d₁, hstat, hcopy⟩ := Action.bind_eq_ok hd
  obtain ⟨hstat, rfl⟩ := Action.look_eq_ok hstat
  obtain ⟨rfl, hn⟩ := stat_joinAll h.stat h.plain.layout_ne_link hsub hstat
  have hplain : n.Plain := h.plain.at? hn
  have hbelow : source.layout.below sub = n.layout := funext fun r => Node.layout_append hn r
  rw [hbelow]
  cases hdir : n.isDir with
  | true =>
    simp only [hdir, if_true] at hcopy
    obtain ⟨d₂, d₃, hget, hvisits⟩ := Action.bind_eq_ok hcopy
    obtain ⟨hd₂, rfl⟩ := Prod.mk.inj hget
    obtain rfl := Except.ok.inj hd₂
    rw [walkFrom_of_plain hstat hdir hplain] at hvisits
    obtain ⟨h', hlay⟩ := h.copyVisits hsub hnames hn (fun e he => (Node.mem_items hplain).mp he)
      hvisits
    refine ⟨h', ?_⟩
    rw [hlay, foldl_place_items hplain]
  | false =>
    simp only [hdir, Bool.false_eq_true, if_false] at hcopy
    obtain ⟨h', bytes, executable, hat, hlay⟩ := h.placeFile hsub hnames hcopy
    obtain rfl := Option.some.inj (hn.symm.trans hat)
    refine ⟨h', ?_⟩
    rw [hlay, ← foldl_place_items hplain]
    simp [Node.items, Node.listing, Node.item]

end Site

end Disk

end Scaffold
