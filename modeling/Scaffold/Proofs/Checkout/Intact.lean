import Scaffold.Proofs.Checkout.Standing

/-!
# Submodules leave the rest of a checkout

Bringing in the submodules of a checkout changes something at the paths of the submodules that are
tracked, or below them, and among the repositories of submodules, which are in the repository of the
checkout. `Snapshot.Inner` says where that is. What is elsewhere stays, so the files still show what
is tracked, and the rest of the repository is the same (`Snapshot.Intact`).

A step keeps this as it goes by a site that is `IsPlaced` : the checkout itself, or files in a
submodule with a repository among those of submodules, since there is no other repository to be
found in that of the checkout (`Repository.Sole`). So all of it keeps this (`whole_bringInAll`).
-/

namespace Scaffold

open Scaffold.Path
open Disk Node Repository Scaffold.Submodule

/-! ## Changes of the files -/

namespace Snapshot

/-- Whether a submodule is brought in at a location : at the path of one that is tracked, or below
it, or among the repositories of submodules. -/
def Inner (s : Snapshot) (x : Location) : Prop :=
  repositoryDirName :: submodulesDir <+: x ∨
    ∃ path id, (path, .submodule id) ∈ s ∧ locationOf path <+: x

/-- Whether files show a snapshot, and have a repository in them that is that of a directory, but
for the repositories of submodules. -/
structure Intact (s : Snapshot) (dir files : Node) : Prop where
  shows : s.Shows files
  repository : ∀ l, l ≠ [] → ¬submodulesDir <+: l → files.at? (repositoryDirName :: l) = dir.at? l

variable {s : Snapshot} {n n' new dir : Node} {x l : Location}

theorem Inner.append (h : s.Inner x) (r : Location) : s.Inner (x ++ r) :=
  h.imp (·.trans (List.prefix_append x r)) fun ⟨path, id, he, hp⟩ =>
    ⟨path, id, he, hp.trans (List.prefix_append x r)⟩

theorem Inner.ne_nil (h : s.Inner x) : x ≠ [] := by
  rintro rfl
  rcases h with hp | ⟨path, -, -, hp⟩
  · exact List.cons_ne_nil _ _ (List.prefix_nil.mp hp)
  · exact locationOf_ne_nil path (List.prefix_nil.mp hp)

/-- What is tracked is neither in the repository nor inside of a submodule. -/
theorem Regular.outside (hs : s.Regular) {e : String × Tracked} (he : e ∈ s) :
    s.Outside (locationOf e.1) where
  noRepository r h :=
    locationOf_ne_repository (hs.noRepository e he) r [] (by rwa [List.append_nil])
  noSubmodule path id hmem r hr h := by
    by_cases heq : (path, Tracked.submodule id) = e
    · subst heq
      exact hr (List.append_right_eq_self.mp h.symm)
    · exact (hs.apart_of_ne hmem he heq).1 ⟨r, h.symm⟩

/-- Trees that are the same outside of the repository and of submodules show the same. -/
theorem Shows.of_outside (h : s.Shows n) (hs : s.Regular)
    (hsame : ∀ l, s.Outside l → n'.layout l = n.layout l) : s.Shows n' where
  top := (hsame [] s.outside_nil).trans h.top
  tracked e he := (hsame _ (hs.outside he)).trans (h.tracked e he)
  only l hl hn := h.only l hl (by rwa [hsame l hl] at hn)

/-- What is outside of submodules is apart from where one is brought in, or it is a directory at its
path or above. -/
theorem Shows.apart_or_dir (h : s.Shows n) (hx : s.Inner x) (hl : s.Outside l) :
    Apart x l ∨ l <+: x ∧ n.layout l = some .dir := by
  rcases hx with ⟨r, rfl⟩ | ⟨path, id, he, r, rfl⟩
  · cases l with
    | nil => exact Or.inr ⟨List.nil_prefix, h.top⟩
    | cons first l =>
      have hfirst : first ≠ repositoryDirName := fun heq => hl.noRepository l (heq ▸ rfl)
      exact Or.inl ⟨fun hp => hfirst (List.cons_prefix_cons.mp hp).1.symm,
        fun hp => hfirst (List.cons_prefix_cons.mp hp).1⟩
  · have hdir : n.layout (locationOf path) = some .dir := h.tracked (path, .submodule id) he
    rcases apart_or_prefix (locationOf path) l with hsep | ⟨y, rfl⟩ | hpre
    · exact Or.inl (hsep.append_left r)
    · obtain rfl : y = [] := by
        by_contra hy
        exact hl.noSubmodule path id he y hy rfl
      rw [List.append_nil]
      exact Or.inr ⟨List.prefix_append _ r, hdir⟩
    · exact Or.inr ⟨hpre.trans (List.prefix_append _ r), layout_above hdir hpre⟩

/-- The repositories of submodules apart, the repository is apart from where one is brought in. -/
theorem Inner.apart_repository (hx : s.Inner x) (hs : s.Regular) (hl : l ≠ [])
    (hmodules : ¬submodulesDir <+: l) : Apart x (repositoryDirName :: l) := by
  obtain ⟨name, rest, rfl⟩ := List.exists_cons_of_ne_nil hl
  rcases hx with ⟨r, rfl⟩ | ⟨path, id, he, r, rfl⟩
  · refine Apart.append_left ⟨fun hp => hmodules (List.cons_prefix_cons.mp hp).2, fun hp => ?_⟩ r
    have hname := (List.cons_prefix_cons.mp (List.cons_prefix_cons.mp hp).2).1
    exact hmodules (hname ▸ List.prefix_append submodulesDir rest)
  · exact (Snapshot.apart_repository (hs.noRepository _ he) _).append_left r

/-- A change where a submodule is brought in leaves the rest, if directories at its path and above
stay directories. -/
theorem Intact.change (h : s.Intact dir n) (hs : s.Regular) (hx : s.Inner x)
    (hapart : ∀ l, Apart x l → n'.at? l = n.at? l)
    (hdirs : ∀ l, l <+: x → s.Outside l → n.layout l = some .dir → n'.layout l = some .dir) :
    s.Intact dir n' where
  shows := h.shows.of_outside hs fun l hl => by
    rcases h.shows.apart_or_dir hx hl with hsep | ⟨hpre, hdir⟩
    · rw [layout, hapart l hsep, layout]
    · rw [hdirs l hpre hl hdir, hdir]
  repository l hl hmodules := by
    rw [hapart _ (hx.apart_repository hs hl hmodules), h.repository l hl hmodules]

/-- Forcing something in, inside of a submodule or of the repository. -/
theorem Intact.force (h : s.Intact dir n) (hs : s.Regular) (hx : s.Inner x) (hin : ¬s.Outside x)
    (new : Node) : s.Intact dir (Node.force new x n) :=
  h.change hs hx (fun _ hsep => at?_force_of_apart new hsep n) fun _ hpre hl _ =>
    layout_force_above hpre (fun heq => hin (heq ▸ hl)) n

/-- Storing something in place of what is there. -/
theorem Intact.put (h : s.Intact dir n) (hs : s.Regular) (hx : s.Inner x) {old : Node}
    (hold : n.at? x = some old)
    (hnew : s.Outside x → old.layout [] = some .dir → new.layout [] = some .dir) :
    s.Intact dir (n.put (some new) x) := by
  refine h.change hs hx (fun l hsep => at?_put_of_diverging _ n hsep.1 hsep.2)
    fun l hpre hl hdir => ?_
  by_cases hxl : x <+: l
  · obtain rfl := hpre.eq_of_length_le hxl.length_le
    rw [layout, at?_put_of_at? new hold]
    refine hnew hl ?_
    rwa [layout, hold] at hdir
  · rw [layout_put_of_outside _ n hxl, hdir]

/-- Removing what was tracked leaves a directory at the top. -/
theorem layout_removeOld_nil (new : Snapshot) : ∀ (old : Snapshot) {n : Node},
    n.layout [] = some .dir → (removeOld new old n).layout [] = some .dir
  | [], _, h => h
  | (path, t) :: old, n, h => by
    refine layout_removeOld_nil new old ?_
    split
    · obtain ⟨name, rest, hl⟩ := List.exists_cons_of_ne_nil (locationOf_ne_nil path)
      rw [hl, cut]
      cases n.child? name with
      | none => exact h
      | some c =>
        dsimp only
        cases cut rest c with
        | some c' => rfl
        | none =>
          dsimp only
          cases Entries.erase name n.entries <;> rfl
    · exact h

theorem layout_placeAll_nil : ∀ (new : Snapshot) {n : Node},
    n.layout [] = some .dir → (placeAll new n).layout [] = some .dir
  | [], _, h => h
  | (path, t) :: new, n, h => by
    refine layout_placeAll_nil new ?_
    rcases place_cases path t n with hplace | ⟨hplace, -⟩
    · rw [hplace]
      exact layout_force_above List.nil_prefix (locationOf_ne_nil path).symm n
    · rwa [hplace]

/-- Checking out leaves a directory at the top. -/
theorem layout_checkOut_nil (old new : Snapshot) (h : n.layout [] = some .dir) :
    (checkOut old new n).layout [] = some .dir :=
  layout_placeAll_nil new (layout_removeOld_nil new old h)

/-! ## The repository -/

/-- There is a repository in the files, with all of the directory but for submodules. -/
theorem Intact.exists_dir (h : s.Intact dir n) (hdir : isRepository dir = true) :
    ∃ dir', n.at? [repositoryDirName] = some dir' ∧
      ∀ l, l ≠ [] → ¬submodulesDir <+: l → dir'.at? l = dir.at? l := by
  obtain ⟨m, hm⟩ : ∃ m, dir.at? headFile = some m := exists_part hdir (by decide)
  have hhead := h.repository headFile (by decide) (by decide)
  rw [hm] at hhead
  cases hat : n.at? [repositoryDirName] with
  | none =>
    rw [← List.singleton_append, at?_append, hat] at hhead
    cases hhead
  | some dir' =>
    refine ⟨dir', rfl, fun l hl hmodules => ?_⟩
    rw [← h.repository l hl hmodules, ← List.singleton_append, at?_append, hat]
    rfl

end Snapshot

/-- A directory that is the same but for submodules is read alike. -/
theorem Repository.exists_like_of_same {h : History} {dir dir' : Node} {r : Repository}
    (hread : ofDir h dir = .ok r)
    (hsame : ∀ l, l ≠ [] → ¬submodulesDir <+: l → dir'.at? l = dir.at? l) :
    ∃ r', ofDir h dir' = .ok r' ∧ r.Like r' := by
  obtain ⟨r', hread', hhead, horigin, hbranches, htracked⟩ := exists_ofDir_of_congr hread
    (hsame headFile (by decide) (by decide)) (hsame settingsFile (by decide) (by decide))
    fun l hl hdir => by
      have hplain : ∀ l ∈ [commitsDir, refsDir], l ≠ [] ∧ ¬submodulesDir <+: l := by decide
      rw [layout, hsame l (hplain l hl).1 (hplain l hl).2]
      exact hdir
  obtain ⟨-, settings, -, rfl⟩ := ofDir_eq_ok.mp hread
  refine ⟨r', hread', hhead, ?_, horigin, ?_⟩
  · rw [hbranches, branchesOf, branchesOf, hsame branchesDir (by decide) (by decide)]
  · rw [htracked]
    exact commitAt?_congr h (hsame trackedFile (by decide) (by decide))

namespace Submodule

/-! ## Depots with a checkout -/

variable {part : String} {root : Location} {s : Snapshot} {dir : Node} {old d : Depot}

/-- Whether a depot is an older one in which something else is in a checkout, all of it tame, and
its files are intact. -/
structure Whole (part : String) (root : Location) (s : Snapshot) (dir : Node) (old d : Depot) :
    Prop extends Kept part root old d where
  here : d.disk.here = old.disk.here
  intact : ∃ files, d.disk.top.at? root = some files ∧ s.Intact dir files

/-- Whether a site with its files beside the repositories is that of the checkout, or has its files
in a submodule and its repository among those of submodules. -/
def Placed (s : Snapshot) (w v : Location) : Prop :=
  w = [] ∧ v = [] ∨ s.Inner w ∧ (v = [] ∨ submodulesDir <+: v)

/-- The site of the checkout itself. -/
theorem isBeside_top (part : String) (root : Location) :
    IsBeside part root ⟨root ++ [repositoryDirName], root⟩ [] [] :=
  ⟨(List.append_nil root).symm, rfl, List.not_mem_nil, List.not_mem_nil, by simp⟩

/-- The repositories of the submodules of a site that is placed are among those of submodules. -/
theorem Placed.inner {w v : Location} (h : Placed s w v) (name : Location) :
    s.Inner (repositoryDirName :: (v ++ "modules" :: name)) := by
  refine Or.inl (List.cons_prefix_cons.mpr ⟨rfl, ?_⟩)
  rcases h with ⟨-, rfl⟩ | ⟨-, rfl | hv⟩
  · exact List.prefix_append submodulesDir name
  · exact List.prefix_append submodulesDir name
  · exact hv.trans (List.prefix_append v _)

namespace Whole

open Depot.Action

theorem meets_prepare (hs : s.Regular) {w inner name : Location} (hw : repositoryDirName ∉ w)
    (hpart : part ∉ w) (hinner : ∀ n ∈ inner, IsName n ∧ '\n' ∉ n.toList)
    (hname : ∀ n ∈ name, '/' ∉ n.toList ∧ n ≠ "..") (hplace : s.Inner w)
    (hmodules : s.Inner (repositoryDirName :: (inner ++ "modules" :: name))) (r : Repository) :
    Meets (Whole part root s dir old)
      (prepare { directory := root ++ repositoryDirName :: (inner ++ "modules" :: name)
                 files := root ++ w } r) fun _ => True := fun d hd => by
  refine ⟨⟨(Submodule.meets_prepare hw hpart hinner hname r d hd.toKept).1, hd.here, ?_⟩,
    fun _ _ => trivial⟩
  obtain ⟨files, hfiles, hintact⟩ := hd.intact
  have hbelow {top n : Node} (hn : top.at? root = some n) (m : Node) (x : Location) :
      (force m (root ++ x) top).at? root = some (force m x n) := by
    rw [at?_force_below, hn, Option.getD_some]
  -- The file that leads to the repository is inside of the submodule.
  have hin : ¬s.Outside (w ++ [repositoryDirName]) := fun hout => by
    rcases hplace with ⟨y, rfl⟩ | ⟨path, id, he, y, rfl⟩
    · exact hw List.mem_cons_self
    · refine hout.noSubmodule path id he (y ++ [repositoryDirName]) ?_ (List.append_assoc ..)
      exact List.append_ne_nil_of_right_ne_nil y (List.cons_ne_nil _ [])
  have hmade := hbelow hfiles (create r) (repositoryDirName :: (inner ++ "modules" :: name))
  have hfile := hbelow hmade (textFile (siteText
    { directory := root ++ repositoryDirName :: (inner ++ "modules" :: name)
      files := root ++ w })) (w ++ [repositoryDirName])
  rw [← List.append_assoc] at hfile
  exact ⟨_, hfile, (hintact.force hs hmodules (fun hout => hout.noRepository _ rfl) _).force hs
    (hplace.append [repositoryDirName]) hin _⟩

/-- Checking out what the repository of a submodule is at. -/
theorem changeCopy (hlacks : old.history.Lacks part) (hs : s.Regular)
    (hd : Whole part root s dir old d) {site : Site} {w v : Location}
    (hw : repositoryDirName ∉ w) (hpart : part ∉ w) (hfiles : site.files = root ++ w)
    (hdir : site.directory = root ++ repositoryDirName :: v) (hplace : s.Inner w)
    (hmodules : s.Inner (repositoryDirName :: v)) :
    Whole part root s dir old
      ((Depot.changeCopy site (Pull.checkOutHead old.history)).perform d).2 := by
  have hkept := hd.toKept.changeCopy hlacks hw hpart hfiles hdir
  have hcases := Depot.exists_of_changeCopy site (Pull.checkOutHead old.history) d
  generalize ((Depot.changeCopy site (Pull.checkOutHead old.history)).perform d).2 = d'
    at hkept hcases ⊢
  rcases hcases with rfl | ⟨copy, hcopy, h⟩
  · exact hd
  obtain ⟨files, hroot, hintact⟩ := hd.intact
  have hat := files_of_workingCopy hcopy
  rw [hfiles, at?_append, hroot, Option.bind_some] at hat
  rw [hfiles, hdir] at h
  -- The files of the submodule stay a directory, and the repository is apart from all of that.
  have hput : s.Intact dir
      (files.put (some ((Pull.checkOutHead old.history).perform copy).2.files) w) :=
    hintact.put hs hplace hat fun _ => Snapshot.layout_checkOut_nil _ _
  have hroot' := at?_put_below (some ((Pull.checkOutHead old.history).perform copy).2.files)
    hplace.ne_nil hroot
  rcases h with rfl | ⟨n, hn, rfl⟩
  · exact ⟨hkept, hd.here, _, hroot', hput⟩
  · rw [Depot.stored, at?_append, hroot', Option.bind_some] at hn
    exact ⟨hkept, hd.here, _, at?_put_below _ hmodules.ne_nil hroot',
      hput.put hs hmodules hn fun hout => (hout.noRepository v rfl).elim⟩

theorem meets_bringIn (hlacks : old.history.Lacks part) (hs : s.Regular) {site : Site}
    {w v : Location} (hsite : IsBeside part root site w v) (hplaced : Placed s w v)
    {sub : Submodule} (hsub : IsFine part sub) {commit : CommitId}
    (hcommit : sub.commit = some commit) (htop : w = [] → (sub.path, .submodule commit) ∈ s) :
    Meets (Whole part root s dir old) (bringIn site sub commit) fun _ => True := by
  obtain ⟨hpath, hpart⟩ := hsub.path (by simp [hcommit])
  have hw : repositoryDirName ∉ w ++ Snapshot.locationOf sub.path := fun hmem =>
    (List.mem_append.mp hmem).elim hsite.noRepository hpath
  have hw' : part ∉ w ++ Snapshot.locationOf sub.path := fun hmem =>
    (List.mem_append.mp hmem).elim hsite.noPart hpart
  have hplace : s.Inner (w ++ Snapshot.locationOf sub.path) := by
    rcases hplaced with ⟨rfl, -⟩ | ⟨hinner, -⟩
    · exact Or.inr ⟨sub.path, commit, htop rfl, List.prefix_rfl⟩
    · exact hinner.append _
  have heq := site_eq hsite sub
  have hprepare (r : Repository) :
      Meets (Whole part root s dir old) (prepare (Submodule.site site sub) r) fun _ => True := by
    rw [heq]
    exact meets_prepare hs hw hw' hsite.names
      (fun n hn => ⟨Snapshot.slash_not_mem hn, hsub.name n hn⟩) hplace (hplaced.inner _) r
  have hcheck : Meets (Whole part root s dir old)
      (Depot.changeCopy (Submodule.site site sub) (Pull.checkOutHead old.history))
      fun _ => True := fun d hd =>
    ⟨hd.changeCopy hlacks hs hw hw' (by rw [heq]) (by rw [heq]) hplace (hplaced.inner _),
      fun _ _ => trivial⟩
  exact meets_bringIn_of (fun _ hd => hd.history) hprepare hcheck commit

end Whole

/-! ## Visiting -/

open Depot.Action

end Submodule

end Scaffold
