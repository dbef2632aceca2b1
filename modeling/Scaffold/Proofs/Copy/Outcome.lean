import Scaffold.Proofs.Copy.Again
import Scaffold.Proofs.Copy.Placing

/-!
# What comes of copying

On a site an action of a copy rule places items below the project one after the other, up to the
first one that something is in the way of, and does nothing else (`Places`). This is so for making
directories (`places_makeDirs`), for one file (`places_placeFile`) and for a tree
(`places_copyTree`), whether they succeed or not. So what comes of a rule, and what it leaves of
the project when it fails half way, can be read off the layout of the project alone
(`CopyRule.pass`, `Site.run_pass`).
-/

namespace Scaffold

open Scaffold.Path

namespace Disk

theorem Layout.below_place (root names : Location) (item : Item) (layout : Layout) :
    (layout.place (root ++ names) item).below root = (layout.below root).place names item := by
  funext l
  simp only [Layout.below, Layout.place, List.append_cancel_left_eq,
    List.prefix_append_right_inj]

/-- Where there is a directory one can be made. -/
theorem takesDir_of_dir {top : Node} {root names : Location}
    (h : top.layout (root ++ names) = some .dir) :
    (top.layout.below root).takesDir names = true := by
  refine Layout.takesDir_iff.mpr fun above habove => ?_
  rw [Layout.below, Node.layout_above h ((List.prefix_append_right_inj root).mpr habove)]
  rfl

/-- Where there is a file no directory can be made. -/
theorem takesDir_of_file {top : Node} {root names : Location} {bytes : ByteArray}
    {executable : Bool} (h : top.layout (root ++ names) = some (.file bytes executable)) :
    (top.layout.below root).takesDir names = false := by
  by_contra htakes
  have hfile := Layout.takesDir_iff.mp (Bool.eq_true_of_not_eq_false htakes) names List.prefix_rfl
  rw [Layout.below, h] at hfile
  cases hfile

/-- A path that ends in a name is the path above it with this name. -/
theorem exists_ofParts_eq_join {q : Path} {root : List Part} {names : List String}
    (hq : q.parts = root ++ names.map Part.name) :
    ∀ above n, names = above ++ [n] → ∃ p : Path, ofParts q.parts = p.join n := by
  rintro above n rfl
  refine ⟨ofParts (root ++ above.map Part.name), ?_⟩
  rw [hq, List.map_append, ← List.append_assoc]
  exact ofParts_append _ _

variable {t : Template} {files project : Location} {source : Node} {d : Disk}

/-! ## Making directories -/

namespace Site

/-- Names lead to a directory of the project. -/
theorem leads_append (h : Site t files project source d) {names : List String}
    (hnames : ∀ n ∈ names, IsName n) (hdir : d.top.layout (project ++ names) = some .dir) :
    d.Leads (t.project.parts ++ names.map Part.name) (project ++ names) := by
  induction names using List.reverseRecOn with
  | nil => simpa using h.leads
  | append_singleton names n ih =>
    rw [← List.append_assoc] at hdir ⊢
    have habove := ih (fun m hm => hnames m (List.mem_append_left _ hm))
      (Node.layout_above hdir (List.prefix_append ..))
    have hf := habove.follow_name (hnames n (by simp)) true
      (by simp [hdir, -List.append_assoc])
    obtain ⟨entries, he⟩ := Node.layout_eq_dir.mp hdir
    refine ⟨entries, ?_⟩
    rw [List.map_append, ← List.append_assoc, ← he]
    exact hf

/-- Where there is no directory of the project names lead to none. -/
theorem isDir_eq_false (h : Site t files project source d) {p : Path} {names : List String}
    (hp : p.parts = t.project.parts ++ names.map Part.name) (hnames : ∀ n ∈ names, IsName n)
    (hdir : d.top.layout (project ++ names) ≠ some .dir) : d.isDir p = false := by
  by_contra hthere
  obtain ⟨l, hl⟩ := exists_leads_of_isDir (Bool.eq_true_of_not_eq_false hthere)
  rw [hp] at hl
  have heq := hl.eq_append (fun l' hl' => hl'.unique h.leads) h.free hnames
  exact hdir (heq ▸ hl.layout)

/-- What one more name leads to below the project. -/
theorem resolve_join (h : Site t files project source d) {q : Path} {above : List String}
    (hq : q.parts = t.project.parts ++ above.map Part.name) {n : String} (hn : IsName n)
    (followLast : Bool) :
    d.resolve followLast (q.join n) =
      match d.top.layout (project ++ above) with
      | some .dir => .ok ⟨project ++ above ++ [n], d.top.at? (project ++ above ++ [n])⟩
      | some _ => .error .notDirectory
      | none => .error ((d.top.layout.below project).missing above) := by
  obtain ⟨entries, hproject⟩ := h.leads
  have hne : above ++ [n] ≠ [] := by simp
  obtain ⟨links, hwalk⟩ := exists_follow_names hproject hne
  have hjoin := Disk.resolve_join d followLast q (c := .name n) hn
  have hparts : q.parts ++ [.name n] = t.project.parts ++ (above ++ [n]).map Part.name := by
    rw [hq]
    simp
  rw [hparts, hwalk, walk_names_concat followLast above n h.free] at hjoin
  exact hjoin

/-- What comes of making one directory below the project. -/
theorem perform_makeDir (h : Site t files project source d) {q : Path} {above : List String}
    (hq : q.parts = t.project.parts ++ above.map Part.name) {n : String} (hn : IsName n) :
    (Action.makeDir (q.join n)).perform d =
      match d.top.layout (project ++ above) with
      | some .dir =>
        match d.top.at? (project ++ above ++ [n]) with
        | some _ => (.error .alreadyExists, d)
        | none => (.ok (), { d with
            top := d.top.put (some (.dir [])) (project ++ above ++ [n]) })
      | some _ => (.error .notDirectory, d)
      | none => (.error ((d.top.layout.below project).missing above), d) := by
  have hw : (q.join n).withoutSlash = q.join n := withoutSlash_join q (c := .name n) hn
  rw [Action.perform_makeDir, hw, h.resolve_join hq hn]
  cases d.top.layout (project ++ above) with
  | none => rfl
  | some i =>
    cases i with
    | file | link => rfl
    | dir =>
      dsimp only
      cases d.top.at? (project ++ above ++ [n]) <;> rfl

/-- A directory that is missing next to others is made. -/
theorem makeDir_of_missing (h : Site t files project source d) {q : Path} {above : List String}
    (hq : q.parts = t.project.parts ++ above.map Part.name) {n : String} (hn : IsName n)
    (hdir : d.top.layout (project ++ above) = some .dir)
    (hnone : d.top.layout (project ++ above ++ [n]) = none) :
    (Action.makeDir (q.join n)).perform d = (.ok (), { d with
        top := d.top.put (some (.dir [])) (project ++ above ++ [n]) }) := by
  rw [h.perform_makeDir hq hn, hdir, Node.layout_eq_none.mp hnone]

/-- A directory is made after those above it that are missing, if these can be made. -/
theorem makeDirs_of_none (h : Site t files project source d) {q : Path} {above : List String}
    (hq : q.parts = t.project.parts ++ above.map Part.name) (habove : ∀ m ∈ above, IsName m)
    {n : String} (hn : IsName n) (hnone : d.top.layout (project ++ above) = none)
    (hrest : ((d.top.layout.below project).takesDir above = true ∧
        ∃ d', (Action.makeDirs (ofParts q.parts)).perform d = (.ok (), d')) ∨
      (d.top.layout.below project).takesDir above = false ∧
        ∃ f, (Action.makeDirs (ofParts q.parts)).perform d = (.error f, d)) :
    ((d.top.layout.below project).takesDir (above ++ [n]) = true ∧
        ∃ d', (Action.makeDirs (q.join n)).perform d = (.ok (), d')) ∨
      (d.top.layout.below project).takesDir (above ++ [n]) = false ∧
        ∃ f, (Action.makeDirs (q.join n)).perform d = (.error f, d) := by
  have hpre : AreParts q.parts := areParts_parts q
  have hparts : (q.join n).parts = q.parts ++ [.name n] := parts_join q (c := .name n) hn
  have hne : (q.join n).text ≠ "" := text_join_ne q (c := .name n) hn
  have hmissing : d.top.layout (project ++ above ++ [n]) = none := by
    by_contra hsome
    rw [Node.layout_of_append (by simp) hsome] at hnone
    cases hnone
  have hbelow : d.top.layout.below project (above ++ [n]) = none := by
    rw [Layout.below, ← List.append_assoc, hmissing]
  rw [Layout.takesDir_concat, hbelow, Action.makeDirs_eq hparts hn,
    Action.perform_ensureDirsFrom_cons, if_neg (by simpa using hne), h.perform_makeDir hq hn,
    hnone]
  dsimp only
  rw [Layout.missing_eq]
  rcases hrest with ⟨htakes, d₁, hmade⟩ | ⟨htakes, f, hrefused⟩
  · obtain ⟨h₁, hleads₁, hlay₁⟩ := h.makeDirs ((parts_ofParts hpre).trans hq) habove hmade
    have hmissing₁ : d₁.top.layout (project ++ above ++ [n]) = none := by
      rw [hlay₁, Layout.withDirs, if_neg (Action.not_concat_below _ n), hmissing]
    have hmade' := h₁.makeDir_of_missing hq hn hleads₁.layout hmissing₁
    refine Or.inl ⟨by rw [htakes]; rfl, { d₁ with
      top := d₁.top.put (some (.dir [])) (project ++ above ++ [n]) }, ?_⟩
    rw [htakes, if_pos rfl]
    have hall : (Action.ensureDirsFrom (Action.pathsUp (ofParts q.parts).parts.length
      (ofParts q.parts))).perform d = (.ok (), d₁) := hmade
    dsimp only
    rw [Action.perform_bind_of_ok hall, Action.perform_ensureDir, hmade']
  · have hnames : ∀ m ∈ above ++ [n], IsName m :=
      List.forall_mem_append.mpr ⟨habove, List.forall_mem_singleton.mpr hn⟩
    have hnotDir : d.isDir (q.join n) = false :=
      h.isDir_eq_false (by rw [hparts, hq]; simp) hnames (by simp [← List.append_assoc, hmissing])
    simp [htakes, hnotDir]

/-- Directories are made if no file is in the way, and nothing happens if one is. -/
theorem makeDirs_cases (h : Site t files project source d) {p : Path} {names : List String}
    (hp : p.parts = t.project.parts ++ names.map Part.name) (hnames : ∀ n ∈ names, IsName n)
    (hend : ∀ above n, names = above ++ [n] → ∃ q : Path, p = q.join n) :
    ((d.top.layout.below project).takesDir names = true ∧
        ∃ d', (Action.makeDirs p).perform d = (.ok (), d')) ∨
      (d.top.layout.below project).takesDir names = false ∧
        ∃ f, (Action.makeDirs p).perform d = (.error f, d) := by
  by_cases hdir : d.top.layout (project ++ names) = some .dir
  · have hleads := h.leads_append hnames hdir
    rw [← hp] at hleads
    exact Or.inl ⟨takesDir_of_dir hdir, d, Action.makeDirs_of_leads hleads⟩
  induction names using List.reverseRecOn generalizing p with
  | nil => exact (hdir (by simpa using h.leads.layout)).elim
  | append_singleton above n ih =>
    have hn : IsName n := hnames n (by simp)
    have habove : ∀ m ∈ above, IsName m := fun m hm => hnames m (List.mem_append_left _ hm)
    obtain ⟨q, rfl⟩ := hend above n rfl
    have hparts : (q.join n).parts = q.parts ++ [.name n] := parts_join q (c := .name n) hn
    have hq : q.parts = t.project.parts ++ above.map Part.name := by
      rw [hparts, List.map_append, ← List.append_assoc] at hp
      exact (List.append_inj' hp rfl).1
    cases hlay : d.top.layout (project ++ above) with
    | none =>
      have hpre : AreParts q.parts := areParts_parts q
      refine h.makeDirs_of_none hq habove hn hlay ?_
      exact ih ((parts_ofParts hpre).trans hq) habove (exists_ofParts_eq_join hq) (by simp [hlay])
    | some i =>
      -- There is no need to look further up than the directory above.
      have hne : (q.join n).text ≠ "" := text_join_ne q (c := .name n) hn
      have hnotDir := h.isDir_eq_false hp hnames hdir
      have hlast : d.top.layout.below project (above ++ [n]) =
          d.top.layout (project ++ above ++ [n]) := by rw [Layout.below, List.append_assoc]
      rw [← List.append_assoc] at hdir
      rw [Layout.takesDir_concat, hlast, Action.makeDirs_eq hparts hn,
        Action.perform_ensureDirsFrom_cons, if_neg (by simpa using hne), h.perform_makeDir hq hn,
        hlay]
      cases i with
      | link target => exact (h.free _ target hlay).elim
      | file bytes executable => simp [takesDir_of_file hlay, hnotDir]
      | dir =>
        have htakes := takesDir_of_dir hlay
        cases hname : d.top.layout (project ++ above ++ [n]) with
        | none => simp [htakes, Node.layout_eq_none.mp hname, -List.append_assoc]
        | some i =>
          obtain ⟨m, hm, -⟩ := Node.layout_eq_some.mp hname
          cases i with
          | dir => exact (hdir hname).elim
          | link target =>
            rw [List.append_assoc] at hname
            exact (h.free _ target hname).elim
          | file bytes executable =>
            simp [htakes, hm, hnotDir, Item.isFile, -List.append_assoc]

/-- A file of the template is copied under a name if nothing but a file stands there. -/
theorem copyFile_cases (h : Site t files project source d) {sub : List String}
    (hsub : ∀ n ∈ sub, IsName n) {bytes : ByteArray} {executable : Bool}
    (hfile : source.at? sub = some (.file bytes executable)) {q : Path} {above : List String}
    (hq : q.parts = t.project.parts ++ above.map Part.name) {n : String} (hn : IsName n)
    (hdir : d.top.layout (project ++ above) = some .dir) :
    ((d.top.layout (project ++ above ++ [n])).any Item.isDir = false ∧
        ∃ d', (Action.copyFile (t.filesDir.joinAll sub) (q.join n)).perform d = (.ok (), d')) ∨
      (d.top.layout (project ++ above ++ [n])).any Item.isDir = true ∧
        ∃ f, (Action.copyFile (t.filesDir.joinAll sub) (q.join n)).perform d = (.error f, d) := by
  rw [Action.perform_copyFile, h.stat_files hsub hfile, h.resolve_join hq hn, hdir]
  dsimp only
  cases hat : d.top.at? (project ++ above ++ [n]) with
  | none => exact Or.inl ⟨by rw [Node.layout, hat]; rfl, _, rfl⟩
  | some m =>
    rw [Node.layout, hat]
    cases m with
    | file => exact Or.inl ⟨rfl, _, rfl⟩
    | dir entries => exact Or.inr ⟨rfl, _, rfl⟩
    | link target =>
      have hlink : d.top.layout (project ++ (above ++ [n])) = some (.link target) := by
        rw [← List.append_assoc, Node.layout, hat]
        rfl
      exact (h.free _ target hlink).elim

end Site

/-! ## Placing items -/

/-- What came of placing items below the project of a site. -/
structure Placed (t : Template) (files project : Location) (source : Node)
    (items : List (Location × Item)) (d : Disk) (result : Except Fault Unit × Disk) : Prop where
  isOk : result.1.isOk = (Layout.placeAll items (d.top.layout.below project)).1
  below : result.2.top.layout.below project =
    (Layout.placeAll items (d.top.layout.below project)).2
  beside : ∀ l, ¬project <+: l → result.2.top.layout l = d.top.layout l
  site : Site t files project source result.2

/-- Whether an action places items below the project of a site, one after the other, up to the
first one that something is in the way of. -/
def Places (t : Template) (files project : Location) (source : Node) (a : Disk.Action Unit)
    (items : List (Location × Item)) : Prop :=
  ∀ d, Site t files project source d → Placed t files project source items d (a.perform d)

theorem places_pure : Places t files project source (pure ()) [] :=
  fun _ h => ⟨rfl, rfl, fun _ _ => rfl, h⟩

/-- The second action only starts when the first one has placed all of its items. -/
theorem Places.bind {a b : Disk.Action Unit} {items others : List (Location × Item)}
    (ha : Places t files project source a items) (hb : Places t files project source b others) :
    Places t files project source (a >>= fun _ => b) (items ++ others) := by
  intro d h
  obtain ⟨hok, hbelow, hbeside, hsite⟩ := ha d h
  rw [Action.perform_bind]
  cases hrun : a.perform d with
  | mk result d₁ =>
    rw [hrun] at hok hbelow hbeside hsite
    cases result with
    | error f =>
      have hstop := Layout.placeAll_append others items (d.top.layout.below project)
      rw [if_neg (by rw [← hok]; exact Bool.false_ne_true)] at hstop
      exact ⟨by rw [hstop]; exact hok, by rw [hstop]; exact hbelow, hbeside, hsite⟩
    | ok _ =>
      have hmore := Layout.placeAll_append others items (d.top.layout.below project)
      rw [if_pos (by rw [← hok]; rfl), ← hbelow] at hmore
      obtain ⟨hok', hbelow', hbeside', hsite'⟩ := hb d₁ hsite
      exact ⟨by rw [hmore]; exact hok', by rw [hmore]; exact hbelow',
        fun l hl => (hbeside' l hl).trans (hbeside l hl), hsite'⟩

/-- An item that can be placed is the only change. -/
theorem Site.placed (h : Site t files project source d) {names : List String} {item : Item}
    (htakes : (d.top.layout.below project).takes names item = true) {d' : Disk}
    (hsite : Site t files project source d')
    (hlay : d'.top.layout = d.top.layout.place (project ++ names) item) :
    Placed t files project source [(names, item)] d (.ok (), d') := by
  have hplace : Layout.placeAll [(names, item)] (d.top.layout.below project) =
      (true, (d.top.layout.below project).place names item) := by
    rw [Layout.placeAll, if_pos htakes]
    rfl
  refine ⟨by rw [hplace]; rfl, ?_, fun l hl => ?_, hsite⟩
  · rw [hplace, ← Layout.below_place]
    exact congrArg _ hlay
  · -- What is above the project is a directory before and after.
    change d'.top.layout l = d.top.layout l
    rw [hlay, Layout.place, if_neg fun heq => hl (by rw [heq]; exact List.prefix_append ..)]
    split
    · rename_i hpre
      have habove : l <+: project :=
        (List.prefix_or_prefix_of_prefix hpre (List.prefix_append ..)).resolve_right hl
      exact (Node.layout_above h.leads.layout habove).symm
    · rfl

/-- An item that something is in the way of is not placed. -/
theorem placed_of_refused {names : List String} {item : Item}
    (htakes : (d.top.layout.below project).takes names item = false) {d' : Disk}
    (hsite : Site t files project source d') (hlay : d'.top.layout = d.top.layout) (f : Fault) :
    Placed t files project source [(names, item)] d (.error f, d') := by
  have hplace : Layout.placeAll [(names, item)] (d.top.layout.below project) =
      (false, d.top.layout.below project) := by
    rw [Layout.placeAll, if_neg (by rw [htakes]; exact Bool.false_ne_true)]
  exact ⟨by rw [hplace]; rfl, by rw [hplace, hlay], fun l _ => congrFun hlay l, hsite⟩

theorem places_makeDirs {p : Path} {names : List String}
    (hp : p.parts = t.project.parts ++ names.map Part.name) (hnames : ∀ n ∈ names, IsName n)
    (hend : ∀ above n, names = above ++ [n] → ∃ q : Path, p = q.join n) :
    Places t files project source (Action.makeDirs p) [(names, .dir)] := by
  intro d h
  rcases h.makeDirs_cases hp hnames hend with ⟨htakes, d', hmade⟩ | ⟨htakes, f, hrefused⟩
  · obtain ⟨hsite, -, hlay⟩ := h.makeDirs hp hnames hmade
    rw [hmade]
    exact h.placed (by rw [Layout.takes]; exact htakes) hsite
      (hlay.trans (Layout.withDirs_eq_place ..))
  · rw [hrefused]
    exact placed_of_refused (by rw [Layout.takes]; exact htakes) h rfl f

/-- What is above a path that leads to a directory leads to one. -/
theorem exists_leads_parent {p q : Path} {l : Location} (h : d.Leads p.parts l)
    (hq : p.parent? = some q) : ∃ l', d.Leads q.parts l' := by
  obtain ⟨c, hc⟩ := exists_of_parent?_eq_some hq
  obtain ⟨entries, hf⟩ := h
  by_cases hnil : q.parts = []
  · rw [hnil, List.nil_append] at hc
    rw [hc] at hf
    cases c with
    | root =>
      rw [parent?, hc] at hq
      cases hq
    | here => exact ⟨l, entries, hnil ▸ hf⟩
    | up =>
      rw [hnil]
      exact exists_leads_of_follow (c := .up) trivial hf
    | name n =>
      have hmem : Part.name n ∈ p.parts := by rw [hc]; exact List.mem_singleton_self _
      rw [hnil]
      exact exists_leads_of_follow (c := .name n) (isName_of_mem_parts hmem) hf
  · rw [hc] at hf
    exact exists_leads_of_follow
      (isStep_of_parts_append hc hnil (List.mem_singleton_self c)) hf

/-- The directory of a project is not replaced by a file. -/
theorem Site.perform_placeFile_project (h : Site t files project source d) (p : Path) :
    ∃ f, (Action.placeFile p t.project).perform d = (.error f, d) := by
  have hcopy : (Action.placeFile p t.project).perform d =
      (Action.copyFile p t.project).perform d := by
    rw [Action.placeFile_eq]
    cases hparent : t.project.parent? with
    | none => rfl
    | some q =>
      obtain ⟨l, hl⟩ := exists_leads_parent h.leads hparent
      rw [Option.elim_some, Action.perform_bind, Action.makeDirs_of_leads hl]
  rw [hcopy]
  cases hrun : (Action.copyFile p t.project).perform d with
  | mk result d' =>
    cases result with
    | ok _ => exact (h.not_placeFile (hcopy.trans hrun)).elim
    | error f => exact ⟨f, by rw [Action.copyFile_eq_error hrun]⟩

theorem Layout.takes_file_concat (layout : Layout) (above : List String) (n : String)
    (bytes : ByteArray) (executable : Bool) :
    layout.takes (above ++ [n]) (.file bytes executable) =
      (layout.takesDir above && !(layout (above ++ [n])).any Item.isDir) := by
  simp [Layout.takes, Item.isDir]

theorem places_placeFile {sub names : List String} (hsub : ∀ n ∈ sub, IsName n)
    (hnames : ∀ n ∈ names, IsName n) {bytes : ByteArray} {executable : Bool}
    (hfile : source.at? sub = some (.file bytes executable)) :
    Places t files project source
      (Action.placeFile (t.filesDir.joinAll sub) (t.project.joinAll names))
      [(names, .file bytes executable)] := by
  intro d h
  rcases List.eq_nil_or_concat' names with rfl | ⟨above, n, rfl⟩
  · obtain ⟨f, hrefused⟩ := h.perform_placeFile_project (t.filesDir.joinAll sub)
    have hdir : d.top.layout.below project [] = some .dir := by
      rw [Layout.below, List.append_nil]
      exact h.leads.layout
    rw [joinAll_nil, hrefused]
    exact placed_of_refused (by simp [Layout.takes, hdir, Item.isDir]) h rfl f
  have hn : IsName n := hnames n (by simp)
  have habove : ∀ m ∈ above, IsName m := fun m hm => hnames m (List.mem_append_left _ hm)
  have hparts := parts_joinAll t.project above habove
  have hq := parts_ofParts (areParts_parts (t.project.joinAll above))
  have hend := exists_ofParts_eq_join hparts
  have htakes := Layout.takes_file_concat (d.top.layout.below project) above n bytes executable
  rw [Layout.below, ← List.append_assoc] at htakes
  have hrun := congrArg (Disk.Action.perform · d)
    (Action.placeFile_joinAll (t.filesDir.joinAll sub) t.project above hn)
  rcases h.makeDirs_cases (hq.trans hparts) habove hend with ⟨hway, d₁, hmade⟩ | ⟨hway, f, hrefused⟩
  · obtain ⟨h₁, hleads₁, hlay₁⟩ := h.makeDirs (hq.trans hparts) habove hmade
    rw [Action.perform_bind_of_ok hmade] at hrun
    have hsame : d₁.top.layout (project ++ above ++ [n]) =
        d.top.layout (project ++ above ++ [n]) := by
      rw [hlay₁, Layout.withDirs, if_neg (Action.not_concat_below _ n)]
    rcases h₁.copyFile_cases hsub hfile hparts hn hleads₁.layout with
      ⟨hfree, d', hcopied⟩ | ⟨hdir, f, hrefused⟩
    · have hok := hrun.trans hcopied
      obtain ⟨hsite, b, x, hat, hlay⟩ := h.placeFile hsub hnames hok
      obtain ⟨rfl, rfl⟩ := Node.file.inj (Option.some.inj (hfile.symm.trans hat))
      rw [hsame] at hfree
      rw [hok]
      exact h.placed (by rw [htakes, hway, hfree]; rfl) hsite hlay
    · -- The directory in the way has all directories above it, so none was made.
      rw [hrun, hrefused]
      rw [hsame] at hdir
      refine placed_of_refused (by rw [htakes, hdir, Bool.not_true, Bool.and_false]) h₁ ?_ f
      rw [hlay₁]
      refine Node.withDirs_layout (Node.layout_of_append (r := [n]) (by simp) fun hnone => ?_)
      rw [hnone] at hdir
      cases hdir
  · rw [hrun, Action.perform_bind_of_error hrefused]
    exact placed_of_refused (by rw [htakes, hway, Bool.false_and]) h rfl f

/-- What a walk comes by is placed below the target. -/
theorem places_copyVisits {sub names : List String} (hsub : ∀ n ∈ sub, IsName n)
    (hnames : ∀ n ∈ names, IsName n) {tree : Node} (htree : source.at? sub = some tree)
    (hplain : source.Plain) :
    ∀ {items : List (Location × Item)}, (∀ e ∈ items, tree.layout e.1 = some e.2) →
      Places t files project source
        (Action.copyVisits (t.filesDir.joinAll sub) (t.project.joinAll names)
          (items.map (visitOf [])))
        (items.map fun e => (names ++ e.1, e.2))
  | [], _ => places_pure
  | (r, i) :: items, hitems => by
    have hr : tree.layout r = some i := hitems _ List.mem_cons_self
    have htreePlain : tree.Plain := hplain.at? htree
    have hrnames : ∀ n ∈ r, IsName n := htreePlain.isName (by simp [hr])
    have hall : ∀ n ∈ names ++ r, IsName n := List.forall_mem_append.mpr ⟨hnames, hrnames⟩
    have hrest := places_copyVisits hsub hnames htree hplain
      fun e he => hitems e (List.mem_cons_of_mem _ he)
    rw [List.map_cons, visitOf, List.nil_append, Action.copyVisits_cons, List.map_cons]
    rw [← List.singleton_append]
    refine Places.bind ?_ hrest
    simp only [← joinAll_append]
    cases i with
    | dir =>
      refine places_makeDirs (parts_joinAll t.project _ hall) hall fun above n hsplit => ?_
      rw [hsplit, joinAll_concat]
      exact ⟨_, rfl⟩
    | file bytes executable =>
      refine places_placeFile (List.forall_mem_append.mpr ⟨hsub, hrnames⟩) hall ?_
      rw [Node.at?_append, htree, Option.bind_some, Node.layout_eq_file.mp hr]
    | link target => exact (htreePlain.layout_ne_link r target hr).elim

/-- A tree is placed below the target item by item. -/
theorem places_copyTree {sub names : List String} (hsub : ∀ n ∈ sub, IsName n)
    (hnames : ∀ n ∈ names, IsName n) {tree : Node} (htree : source.at? sub = some tree) :
    Places t files project source
      (Action.copyTree (t.filesDir.joinAll sub) (t.project.joinAll names))
      (tree.items.map fun e => (names ++ e.1, e.2)) := by
  intro d h
  have hstat := h.stat_files hsub htree
  have hplain : tree.Plain := h.plain.at? htree
  rw [Action.perform_copyTree, hstat]
  dsimp only
  cases hdir : tree.isDir with
  | true =>
    rw [if_pos rfl, walkFrom_of_plain hstat hdir hplain]
    exact places_copyVisits hsub hnames htree h.plain
      (fun e he => (Node.mem_items hplain).mp he) d h
  | false =>
    rw [if_neg Bool.false_ne_true]
    cases hplain with
    | file bytes executable =>
      have hitems : (Node.file bytes executable).items = [([], .file bytes executable)] := by
        simp [Node.items, Node.listing, Node.item]
      rw [hitems, List.map_singleton, List.append_nil]
      exact places_placeFile hsub hnames htree d h
    | dir => cases hdir

/-- There is nothing to copy where the template has nothing. -/
theorem Site.perform_copyTree_of_none (h : Site t files project source d) {sub : List String}
    (hsub : ∀ n ∈ sub, IsName n) (hnone : source.at? sub = none) (target : Path) :
    ∃ f, (Action.copyTree (t.filesDir.joinAll sub) target).perform d = (.error f, d) := by
  have hfree : ∀ r target, d.top.layout (files ++ r) ≠ some (.link target) := fun r target => by
    rw [Node.layout_append (at?_of_stat h.stat)]
    exact h.plain.layout_ne_link r target
  have hat : d.top.at? (files ++ sub) = none := by
    rw [Node.at?_append, at?_of_stat h.stat, Option.bind_some, hnone]
  rw [Action.perform_copyTree, stat_joinAll_eq h.stat hfree hsub, hat]
  exact ⟨_, rfl⟩

end Disk

open Disk

/-! ## Rules -/

/-- What a rule copies, and where below the project, unless there is nothing that it may copy. -/
def CopyRule.items? (t : Template) (source : Node) (r : CopyRule) :
    Option (List (Location × Item)) :=
  match r.paths t with
  | .error _ => none
  | .ok _ => (source.at? (namesOf r.source)).map fun tree =>
      tree.items.map fun e => (namesOf r.destination ++ e.1, e.2)

/-- What comes of a rule, and what it makes of a project. -/
def CopyRule.pass (t : Template) (source : Node) (r : CopyRule) (layout : Layout) :
    Bool × Layout :=
  (r.items? t source).elim (false, layout) (Layout.placeAll · layout)

/-- What a rule makes of a project on a disk. -/
theorem Disk.Site.run_pass {t : Template} {files project : Location} {source : Node} {d : Disk}
    (h : Site t files project source d) (r : CopyRule) :
    let result := (r.run t).perform d
    result.1.isOk = (r.pass t source (d.top.layout.below project)).1 ∧
      result.2.top.layout.below project = (r.pass t source (d.top.layout.below project)).2 ∧
      (∀ l, ¬project <+: l → result.2.top.layout l = d.top.layout l) ∧
      Site t files project source result.2 := by
  intro result
  have hresult : result = _ := CopyRule.perform_run t r d
  unfold CopyRule.pass CopyRule.items?
  rw [hresult]
  cases hpaths : r.paths t with
  | error f => exact ⟨rfl, rfl, fun _ _ => rfl, h⟩
  | ok paths =>
    obtain ⟨p, q⟩ := paths
    obtain ⟨rfl, rfl⟩ := CopyRule.paths_eq_ok hpaths
    have hsub : ∀ n ∈ namesOf r.source, IsName n := fun _ => isName_of_mem_namesOf
    dsimp only
    cases htree : source.at? (namesOf r.source) with
    | none =>
      obtain ⟨f, hf⟩ := h.perform_copyTree_of_none hsub htree
        (t.project.joinAll (namesOf r.destination))
      rw [hf]
      exact ⟨rfl, rfl, fun _ _ => rfl, h⟩
    | some tree =>
      obtain ⟨hok, hbelow, hbeside, hsite⟩ :=
        places_copyTree hsub (fun _ => isName_of_mem_namesOf) htree d h
      exact ⟨hok, hbelow, hbeside, hsite⟩

end Scaffold
