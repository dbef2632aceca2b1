import Scaffold.Proofs.Checkout.Intact
import Scaffold.Proofs.Checkout.Nesting
import Scaffold.Proofs.Repository.Leading

/-!
# The sites of a checkout

A site `Stands` at a commit if its repository tracks the commit, its files show what the commit does
and the site is found from them (`Stands.siteAt?`). It is `Fresh` right after its files were checked
out into an empty directory, when the directories of its submodules are empty (`Fresh.at?_submodule`)
and what it lists is what the commit says (`Fresh.perform_listAt`). The site of a submodule that was
not brought in is `Blank`, so nothing is tracked at its files (`Blank.not_tracks`).
-/

namespace Scaffold

open Scaffold.Path
open Disk Node Repository Submodule

/-- Whether files are those of a repository that tracks a commit. -/
def Depot.Tracks (d : Depot) (l : Location) (id : CommitId) : Prop :=
  ∃ s r, d.siteAt? l = some s ∧ d.read s = .ok r ∧ r.tracked = some id

/-! ## What is placed in an empty directory -/

namespace Snapshot

/-- What was nowhere before is there as a file, a link, or an empty directory when it is placed. -/
theorem at?_placeAll_of_none : ∀ {s : Snapshot}, s.Regular → ∀ {n : Node}, ∀ e ∈ s,
    n.at? (locationOf e.1) = none → (placeAll s n).at? (locationOf e.1) = some (leaf e.2)
  | (path, t) :: s, hs, n, e, he, hn => by
    have hrest : Regular s :=
      ⟨fun e he => hs.noRepository e (List.mem_cons_of_mem _ he),
        (List.pairwise_cons.mp hs.apart).2⟩
    have hfirst := (List.pairwise_cons.mp hs.apart).1
    rw [placeAll]
    rcases List.mem_cons.mp he with rfl | he
    · rw [at?_placeAll_of_apart fun e he => (hfirst e he).symm]
      rcases place_cases path t n with hplace | ⟨-, hdir, -⟩
      · have hat := at?_force_append (leaf t) (locationOf path) n []
        rw [List.append_nil] at hat
        rw [hplace, hat, at?_nil]
      · rw [layout, hn] at hdir
        cases hdir
    · exact at?_placeAll_of_none hrest e he (by rwa [at?_place_of_apart (hfirst e he)])

/-- Beside a repository alone there is nothing else. -/
theorem at?_dir_repository {l : Location} (hl : l ≠ []) (hfree : repositoryDirName ∉ l) (m : Node) :
    (Node.dir [(repositoryDirName, m)]).at? l = none := by
  obtain ⟨first, rest, rfl⟩ := List.exists_cons_of_ne_nil hl
  have hne : repositoryDirName ≠ first := fun heq => hfree (heq ▸ List.mem_cons_self)
  rw [at?, child?, Node.entries, Entries.get?, if_neg hne, Entries.get?_nil]
  rfl

/-! ## What is there under a name -/

/-- There is a directory under a name if something is tracked below it and nothing at it. -/
theorem Shows.layout_name_of_any {c : Snapshot} {n : Node} (h : c.Shows n) {name : String}
    (hlocation : locationOf name = [name]) (hget : Entries.get? name c = none)
    (hany : (c.any fun e => (locationOf e.1).head? == some name) = true) :
    n.layout [name] = some .dir := by
  obtain ⟨e, he, hhead⟩ := List.any_eq_true.mp hany
  obtain ⟨rest, hrest⟩ := List.head?_eq_some_iff.mp (beq_iff_eq.mp hhead)
  have hne : rest ≠ [] := by
    rintro rfl
    have hpath : e.1 = name := by
      rw [← pathOf_locationOf e.1, hrest, ← hlocation, pathOf_locationOf]
    have hhas := Entries.has_eq_true.mpr ⟨e, he, hpath⟩
    rw [Entries.has, hget] at hhas
    cases hhas
  refine layout_of_append (r := rest) hne ?_
  rw [List.singleton_append, ← hrest, h.tracked e he]
  exact Option.some_ne_none _

/-- There is nothing under a name if nothing is tracked at or below it. -/
theorem Shows.layout_name_of_not_any {c : Snapshot} {n : Node} (h : c.Shows n)
    {name : String} (hname : name ≠ repositoryDirName)
    (hno : ¬(c.any fun e => (locationOf e.1).head? == some name) = true) :
    n.layout [name] = none := by
  by_contra hthere
  have hout : c.Outside [name] := by
    refine ⟨fun r hr => hname (List.cons.inj hr).1, fun path id _ r hr heq => ?_⟩
    have hlength := congrArg List.length heq
    have hpath := List.length_pos_of_ne_nil (locationOf_ne_nil path)
    have hrest := List.length_pos_of_ne_nil hr
    rw [List.length_singleton, List.length_append] at hlength
    omega
  rcases h.only _ hout hthere with hnil | ⟨e, he, rest, hrest⟩
  · cases hnil
  · exact hno (List.any_eq_true.mpr ⟨e, he, by rw [← hrest]; exact beq_self_eq_true _⟩)

end Snapshot

namespace Submodule

variable {part : String} {root : Location} {d : Depot} {s : Site}
  {commit : Option CommitId} {id : CommitId} {sub : Submodule}

/-! ## Sites that stand -/

/-- What is beside the files of a site : its repository, or a text that leads there. -/
def beacon (s : Site) : Item :=
  if s.directory = s.files ++ [repositoryDirName] then .dir
  else .file (siteText s).toUTF8 false

/-- Whether a repository tracks a commit, or none. -/
def TracksAt (d : Depot) (s : Site) (commit : Option CommitId) : Prop :=
  ∃ n r, d.disk.top.at? s.directory = some n ∧ ofDir d.history n = .ok r ∧ r.tracked = commit

/-- Whether a site in a checkout is at a commit. -/
structure Stands (part : String) (root : Location) (d : Depot) (s : Site)
    (commit : Option CommitId) : Prop where
  beside : ∃ w v, IsBeside part root s w v
  beacon : d.disk.top.layout (s.files ++ [repositoryDirName]) = some (beacon s)
  tracks : TracksAt d s commit
  shows : ∃ files, d.disk.top.at? s.files = some files ∧
    (d.history.snapshotOf commit).Shows files

/-- Whether a site in a checkout is at a commit that was just checked out. -/
structure Fresh (part : String) (root : Location) (d : Depot) (s : Site)
    (commit : Option CommitId) : Prop where
  beside : ∃ w v, IsBeside part root s w v
  tracks : TracksAt d s commit
  files : ∃ m, m.item = Submodule.beacon s ∧ d.disk.top.at? s.files =
    some (Snapshot.checkOut [] (d.history.snapshotOf commit) (.dir [(repositoryDirName, m)]))

/-- Whether nothing was brought in at a site : its directory is empty, or has the text that leads to
a repository that tracks nothing. -/
def Blank (part : String) (root : Location) (d : Depot) (s : Site) : Prop :=
  d.disk.top.at? s.files = some (.dir []) ∨
    (∃ w v, IsBeside part root s w v) ∧
      d.disk.top.at? s.files = some (.dir [(repositoryDirName, textFile (siteText s))]) ∧
        TracksAt d s none

/-- What the repository of a site tracks is read from it. -/
theorem TracksAt.exists_read (h : TracksAt d s commit) :
    ∃ r, d.read s = .ok r ∧ r.tracked = commit := by
  obtain ⟨n, r, hn, hr, htracked⟩ := h
  exact ⟨r, by rw [Depot.read, hn]; exact hr, htracked⟩

/-- The site of a submodule, or that of the checkout itself, is found by what is beside its files. -/
theorem siteAt?_eq (hs : ∃ w v, IsBeside part root s w v)
    (hbeacon : d.disk.top.layout (s.files ++ [repositoryDirName]) = some (beacon s))
    (htracks : TracksAt d s commit) : d.siteAt? s.files = some s := by
  obtain ⟨w, v, hs⟩ := hs
  obtain ⟨n, r, hn, hr, -⟩ := htracks
  have hrepo := Depot.isRepository_of_ofDir hr
  obtain ⟨directory, files⟩ := s
  obtain ⟨rfl, rfl⟩ : files = root ++ w ∧ directory = root ++ repositoryDirName :: v :=
    ⟨hs.files, hs.directory⟩
  unfold beacon at hbeacon
  split at hbeacon
  · rename_i htop
    dsimp only at htop hn
    obtain ⟨m, hm⟩ : ∃ m, d.disk.top.at? (root ++ w) = some m := by
      cases hm : d.disk.top.at? (root ++ w) with
      | some m => exact ⟨m, rfl⟩
      | none =>
        rw [htop, at?_append, hm] at hn
        cases hn
    rw [htop] at hn ⊢
    refine Depot.siteAt?_eq hm ?_ hrepo
    rwa [at?_append, hm] at hn
  · exact Depot.siteAt?_of_siteText hs.noRepository hs.names (layout_eq_file.mp hbeacon) hn hrepo

theorem Stands.siteAt? (h : Stands part root d s commit) : d.siteAt? s.files = some s :=
  siteAt?_eq h.beside h.beacon h.tracks

/-- At the files of a site that stands, its commit is tracked. -/
theorem Stands.depotTracks (h : Stands part root d s (some id)) : d.Tracks s.files id := by
  obtain ⟨r, hr, htracked⟩ := h.tracks.exists_read
  exact ⟨s, r, h.siteAt?, hr, htracked⟩

/-- No site is found where there is nothing. -/
theorem not_tracks_of_none {l : Location} (hl : d.disk.top.at? l = none) (id : CommitId) :
    ¬d.Tracks l id := by
  rintro ⟨s, r, hs, -⟩
  have hbelow : d.disk.top.at? (l ++ [repositoryDirName]) = none := by
    rw [at?_append, hl]
    rfl
  rw [Depot.siteAt?_eq_none hbelow (by rw [Depot.hasRepository, hl]; rfl)] at hs
  cases hs

/-- Nothing is tracked at the files of a site where nothing was brought in. -/
theorem Blank.not_tracks (h : Blank part root d s) (id : CommitId) : ¬d.Tracks s.files id := by
  rintro ⟨t, r, ht, hr, htracked⟩
  rcases h with hempty | ⟨hs, hfiles, htracks⟩
  · rw [Depot.siteAt?_eq_none (by rw [at?_append, hempty]; rfl)
      (by rw [Depot.hasRepository, hempty]; rfl)] at ht
    cases ht
  · have hfile : d.disk.top.at? (s.files ++ [repositoryDirName]) = some (textFile (siteText s)) := by
      rw [at?_append, hfiles]
      rfl
    -- The repository is a directory, so it is not what is beside the files.
    have hne : s.directory ≠ s.files ++ [repositoryDirName] := fun heq => by
      obtain ⟨n, r, hn, hr, -⟩ := htracks
      rw [heq, hfile] at hn
      obtain rfl := Option.some.inj hn
      exact Bool.false_ne_true (Depot.isRepository_of_ofDir hr)
    have hbeacon : d.disk.top.layout (s.files ++ [repositoryDirName]) = some (beacon s) := by
      rw [layout, hfile, beacon, if_neg hne]
      rfl
    rw [siteAt?_eq hs hbeacon htracks] at ht
    obtain rfl := Option.some.inj ht
    obtain ⟨r', hr', hnone⟩ := htracks.exists_read
    obtain rfl := Except.ok.inj (hr'.symm.trans hr)
    rw [hnone] at htracked
    cases htracked

/-- Below the files of such a site nothing is tracked either. -/
theorem Blank.not_tracks_below (h : Blank part root d s) {l : Location} (hl : l ≠ [])
    (hfree : repositoryDirName ∉ l) (id : CommitId) : ¬d.Tracks (s.files ++ l) id := by
  refine not_tracks_of_none ?_ id
  obtain ⟨first, rest, rfl⟩ := List.exists_cons_of_ne_nil hl
  rcases h with hempty | ⟨-, hfiles, -⟩
  · rw [at?_append, hempty]
    rfl
  · rw [at?_append, hfiles]
    exact Snapshot.at?_dir_repository hl hfree _

/-! ## Sites that are fresh -/

/-- Files that were just checked out show the commit, and have their repository beside them. -/
theorem shows_checkOut_empty {c : Snapshot} (hc : c.Regular) (m : Node) :
    c.Shows (Snapshot.checkOut [] c (.dir [(repositoryDirName, m)])) ∧
      (Snapshot.checkOut [] c (.dir [(repositoryDirName, m)])).at? [repositoryDirName] = some m := by
  have hm : (Node.dir [(repositoryDirName, m)]).at? [repositoryDirName] = some m := rfl
  refine ⟨Snapshot.shows_checkOut Snapshot.regular_nil hc (Snapshot.shows_nil m) ?_, ?_⟩
  · rw [layout, hm]
    exact Option.some_ne_none _
  · rw [Snapshot.at?_checkOut_repository Snapshot.regular_nil hc, hm]

theorem Fresh.stands (h : Fresh part root d s commit) (hreg : d.history.Regular) :
    Stands part root d s commit := by
  obtain ⟨m, hm, hfiles⟩ := h.files
  obtain ⟨hshows, hat⟩ := shows_checkOut_empty (hreg.snapshotOf commit) m
  refine ⟨h.beside, ?_, h.tracks, _, hfiles, hshows⟩
  rw [layout_append hfiles, layout, hat, Option.map_some, hm]

/-- The directories of submodules are empty at first. -/
theorem Fresh.at?_submodule (h : Fresh part root d s commit) (hreg : d.history.Regular)
    {path : String} (hpath : (path, .submodule id) ∈ d.history.snapshotOf commit) :
    d.disk.top.at? (s.files ++ Snapshot.locationOf path) = some (.dir []) := by
  obtain ⟨m, -, hfiles⟩ := h.files
  have hc := hreg.snapshotOf commit
  rw [at?_append, hfiles, Option.bind_some, Snapshot.checkOut, Snapshot.removeOld]
  exact Snapshot.at?_placeAll_of_none hc _ hpath
    (Snapshot.at?_dir_repository (Snapshot.locationOf_ne_nil path) (hc.noRepository _ hpath) m)

/-- What a fresh site has under the name of the settings is what its commit tracks there. -/
theorem Fresh.statFrom_settings (h : Fresh part root d s commit) (hreg : d.history.Regular) :
    match Entries.get? settingsName (d.history.snapshotOf commit) with
    | some (.file bytes executable) =>
      d.statFrom s.files settingsName = some (s.files ++ [settingsName], .file bytes executable)
    | some (.submodule _) => ∃ entries,
      d.statFrom s.files settingsName = some (s.files ++ [settingsName], .dir entries)
    | some (.link _) => True
    | none =>
      if (d.history.snapshotOf commit).any
          fun e => (Snapshot.locationOf e.1).head? == some settingsName then
        ∃ entries, d.statFrom s.files settingsName = some (s.files ++ [settingsName], .dir entries)
      else d.statFrom s.files settingsName = none := by
  obtain ⟨files, hfiles, hshows⟩ := (h.stands hreg).shows
  have hname : IsName settingsName := by decide +kernel
  have hlocation : Snapshot.locationOf settingsName = [settingsName] := by decide +kernel
  have hdir (hlayout : files.layout [settingsName] = some .dir) : ∃ entries,
      d.statFrom s.files settingsName = some (s.files ++ [settingsName], .dir entries) := by
    rw [← layout_append hfiles] at hlayout
    obtain ⟨entries, hat⟩ := layout_eq_dir.mp hlayout
    exact ⟨entries, Depot.statFrom_name hname hat nofun⟩
  cases hget : Entries.get? settingsName (d.history.snapshotOf commit) with
  | some t =>
    have htracked := hshows.tracked _ (Entries.mem_of_get? hget)
    rw [hlocation] at htracked
    cases t with
    | link target => trivial
    | submodule id => exact hdir htracked
    | file bytes executable =>
      rw [← layout_append hfiles] at htracked
      exact Depot.statFrom_name hname (layout_eq_file.mp htracked) nofun
  | none =>
    dsimp only
    split
    · rename_i hany
      exact hdir (hshows.layout_name_of_any hlocation hget hany)
    · rename_i hno
      refine Depot.statFrom_eq_none hname ?_
      rw [← layout_eq_none, layout_append hfiles]
      exact hshows.layout_name_of_not_any (by decide) hno

/-- What is listed at a fresh site is what its commit says. -/
theorem Fresh.perform_listAt (h : Fresh part root d s commit) (hreg : d.history.Regular)
    (hmod : d.history.Modular) : (listAt s).perform d =
      ((d.history.submodules? commit).elim (.error .badSettings) .ok, d) := by
  obtain ⟨r, hr, htracked⟩ := h.tracks.exists_read
  have hsnapshot : r.snapshot d.history = d.history.snapshotOf commit := by
    rw [← htracked]
    rfl
  have hinspect : (Depot.inspect (·.read s)).perform d = (.ok r, d) := by
    rw [← hr]
    rfl
  have hstat := h.statFrom_settings hreg
  unfold listAt
  rw [Depot.Action.perform_get_bind, Depot.Action.perform_bind, hinspect]
  dsimp only
  rw [hsnapshot, History.submodules?, Snapshot.submodules?]
  split at hstat
  · rename_i bytes executable hget
    rw [hstat, hget]
    dsimp only
    cases (String.fromUTF8? bytes).bind Settings.ofText <;> rfl
  · rename_i id hget
    obtain ⟨entries, hstat⟩ := hstat
    rw [hstat, hget]
    rfl
  · rename_i target hget
    exact ((hmod.snapshotOf commit).noLink target (Entries.mem_of_get? hget)).elim
  · rename_i hget
    rw [hget]
    dsimp only
    split at hstat
    · rename_i hany
      obtain ⟨entries, hstat⟩ := hstat
      rw [hstat, if_pos hany]
      rfl
    · rename_i hno
      rw [hstat, if_neg hno]
      rfl

/-- Where a submodule is only written about no site is found, since no tracked directory is a
repository. -/
theorem Stands.siteAt?_of_untracked (h : Stands part root d s commit) (hreg : d.history.Regular)
    (hlacks : d.history.Lacks part) (hpart : part ∈ headFile ++ commitsDir ++ refsDir)
    (hsub : sub.Fits part (d.history.snapshotOf commit)) (hnone : sub.commit = none) :
    d.siteAt? (s.files ++ Snapshot.locationOf sub.path) = none := by
  obtain ⟨files, hfiles, hshows⟩ := h.shows
  have hno {name : String} (hname : ∀ e ∈ d.history.snapshotOf commit,
      name ∉ Snapshot.locationOf e.1) :
      d.disk.top.at? (s.files ++ Snapshot.locationOf sub.path ++ [name]) = none := by
    rw [List.append_assoc, ← layout_eq_none, layout_append hfiles]
    by_contra hthere
    have hout : (d.history.snapshotOf commit).Outside (Snapshot.locationOf sub.path ++ [name]) := by
      refine ⟨fun r hr => ?_, fun path id he r hr heq => ?_⟩
      · exact Snapshot.locationOf_ne_repository hsub.noRepository r [name] hr
      · obtain ⟨r, last, rfl⟩ := (List.eq_nil_or_concat' r).resolve_left hr
        rw [← List.append_assoc] at heq
        obtain ⟨heq, -⟩ := List.append_inj' heq rfl
        exact hsub.untracked hnone path id he ⟨r, heq.symm⟩
    rcases hshows.only _ hout hthere with hnil | ⟨e, he, hpre⟩
    · exact List.append_ne_nil_of_right_ne_nil _ (List.cons_ne_nil name []) hnil
    · exact hname e he (hpre.subset (List.mem_append_right _ List.mem_cons_self))
  have hbeside := hno (hreg.snapshotOf commit).noRepository
  have hmissing := hno fun e he => (hlacks.snapshotOf commit e he).noPart
  refine Depot.siteAt?_eq_none hbeside ?_
  by_contra hhas
  obtain ⟨i, hi⟩ := exists_of_hasRepository hpart (Bool.eq_true_of_not_eq_false hhas)
  rw [layout_eq_none.mpr hmissing] at hi
  cases hi

end Submodule

end Scaffold
