import Scaffold.Proofs.Checkout.Entering

/-!
# Going down into submodules

What is visited in a checkout are the paths of submodules that `History.nestings` lists. A visit
comes along some of them, one after the other, and each of these ends at a site that stands at its
commit (`Along`). What is left of the list was not brought in, and it `Ends` with the whole list,
with a submodule that could not be entered, or with settings that could not be read (`Descended`).

The visit of one submodule is put before that of the next ones (`Descended.prepend`), and it is one
of a longer path in the site that it is inside of (`Descended.within`). So all visits are such, by
induction on the levels that are left and on the submodules of a level (`exists_descended`).
-/

namespace Scaffold

open Scaffold.Path
open Disk Node Repository Submodule

/-! ## The ends of paths -/

namespace Submodule

/-- Where the last submodule of a path is. -/
def endSite (s : Site) (path : List Submodule) : Site := path.foldl site s

/-- The commit that the last submodule of a path is at. -/
def endCommit (commit : Option CommitId) (path : List Submodule) : Option CommitId :=
  path.foldl (fun _ sub => sub.commit) commit

variable {part : String} {root : Location} {h : History} {d d' x : Depot} {s u : Site}
  {commit : Option CommitId} {id : CommitId} {sub : Submodule} {subs path : List Submodule}
  {reached rest before more : List (List Submodule)} {depth : Nat}

/-- The files of the last submodule are in those of the first site, by the paths of all. -/
theorem files_endSite : ∀ (path : List Submodule) (s : Site), (endSite s path).files =
    s.files ++ path.flatMap fun sub => Snapshot.locationOf sub.path
  | [], s => by rw [List.flatMap_nil, List.append_nil]; rfl
  | sub :: path, s => by
    rw [List.flatMap_cons, ← List.append_assoc]
    exact files_endSite path (site s sub)

theorem prefix_directory_endSite : ∀ (path : List Submodule) (s : Site),
    s.directory <+: (endSite s path).directory
  | [], _ => List.prefix_rfl
  | sub :: path, s => by
    have hsite : s.directory <+: (site s sub).directory := by
      rw [site, List.append_assoc]
      exact List.prefix_append _ _
    exact hsite.trans (prefix_directory_endSite path (site s sub))

/-- What is apart from a site is apart from those inside of it. -/
theorem Separate.endSite (h : Separate u s) (path : List Submodule) :
    Separate u (endSite s path) := by
  obtain ⟨l, hl⟩ := prefix_directory_endSite path s
  refine ⟨?_, hl ▸ h.directory.append_right l, hl ▸ h.across.append_right l, ?_⟩
  · exact files_endSite path s ▸ h.files.append_right _
  · exact files_endSite path s ▸ h.back.append_right _

end Submodule

theorem History.exists_submodules? {h : History} {commit : Option CommitId} {sub : Submodule}
    (hsub : sub ∈ (h.submodules? commit).getD []) :
    ∃ subs, h.submodules? commit = some subs ∧ sub ∈ subs := by
  cases hsubs : h.submodules? commit with
  | none =>
    rw [hsubs] at hsub
    exact absurd hsub List.not_mem_nil
  | some subs =>
    rw [hsubs] at hsub
    exact ⟨subs, rfl, hsub⟩

/-- Submodules inside of each other are in no repository. -/
theorem History.Nests.noRepository {part : String} {h : History} (hmod : h.Modular)
    (hlacks : h.Lacks part) : ∀ {path : List Submodule} {commit : Option CommitId},
    h.Nests commit path → repositoryDirName ∉ path.flatMap fun sub => Snapshot.locationOf sub.path
  | [], _, _ => List.not_mem_nil
  | sub :: path, commit, ⟨hsub, hpath⟩ => by
    obtain ⟨subs, hsubs, hmem⟩ := exists_submodules? hsub
    have hfits := (hmod.snapshotOf commit).fits (hlacks.snapshotOf commit) hsubs hmem
    rw [List.flatMap_cons, List.mem_append, not_or]
    exact ⟨hfits.noRepository, hpath.noRepository hmod hlacks⟩

namespace Submodule

variable {part : String} {root : Location} {h : History} {d d' x : Depot} {s u : Site}
  {commit : Option CommitId} {id : CommitId} {sub : Submodule} {subs path : List Submodule}
  {reached rest before more : List (List Submodule)} {depth : Nat}

/-- Whether a site is that of one of some submodules. -/
def Among (s : Site) (subs : List Submodule) (u : Site) : Prop :=
  ∃ sub ∈ subs, sub.IsKnown ∧ u = site s sub

theorem among_singleton (s : Site) (sub : Submodule) :
    Among s [sub] = fun u => sub.IsKnown ∧ u = site s sub := by
  funext u
  exact propext (by simp [Among])

theorem Spares.among {few : List Submodule} (hspares : Spares (Among s few) d d')
    (hfew : few ⊆ subs) : Spares (Among s subs) d d' :=
  hspares.mono fun u ⟨sub, hsub, hu⟩ => ⟨u, ⟨sub, hfew hsub, hu⟩, List.prefix_rfl, List.prefix_rfl⟩

/-! ## What is not brought in -/

/-- Whether a submodule was not brought in : its site is blank, or none as it is not tracked. -/
def Unentered (part : String) (root : Location) (d : Depot) (s : Site) (sub : Submodule) : Prop :=
  Blank part root d (site s sub) ∨ sub.commit = none ∧ d.siteAt? (site s sub).files = none

/-- Nothing is tracked in a submodule that was not brought in, nor inside of it. -/
theorem Unentered.not_tracks (hsub : Unentered part root d s sub) (hmod : h.Modular)
    (hlacks : h.Lacks part) (hpath : h.Nests sub.commit path) (id : CommitId) :
    ¬d.Tracks (endSite (site s sub) path).files id := by
  rcases hsub with hblank | ⟨hnone, hsite⟩
  · cases path with
    | nil => exact hblank.not_tracks id
    | cons next path =>
      rw [files_endSite]
      refine hblank.not_tracks_below ?_ (hpath.noRepository hmod hlacks) id
      exact List.append_ne_nil_of_left_ne_nil (Snapshot.locationOf_ne_nil next.path) _
  · cases path with
    | nil =>
      rintro ⟨t, r, ht, -⟩
      cases hsite.symm.trans ht
    | cons next path =>
      rw [hnone] at hpath
      exact absurd hpath.1 List.not_mem_nil

/-- The paths into some submodules, down to some depth. -/
def pathsInto (h : History) (depth : Nat) (subs : List Submodule) : List (List Submodule) :=
  subs.flatMap fun sub => ([] :: h.nestings depth sub.commit).map ([sub] ++ ·)

theorem not_tracks_of_unentered (hmod : h.Modular) (hlacks : h.Lacks part)
    (hsubs : ∀ sub ∈ subs, Unentered part root d s sub) :
    ∀ p ∈ pathsInto h depth subs, ∀ id, ¬d.Tracks (endSite s p).files id := by
  intro p hp id
  obtain ⟨sub, hsub, hp⟩ := List.mem_flatMap.mp hp
  obtain ⟨path, hpath, rfl⟩ := List.mem_map.mp hp
  refine (hsubs sub hsub).not_tracks hmod hlacks ?_ id
  rcases List.mem_cons.mp hpath with rfl | hpath
  · trivial
  · exact (History.mem_nestings.mp hpath).1

/-- Whether a site stands and some submodules of it are still to be brought in. -/
structure Awaits (part : String) (root : Location) (d : Depot) (s : Site)
    (commit : Option CommitId) (subs : List Submodule) : Prop where
  stands : Stands part root d s commit
  fits : ∀ sub ∈ subs, sub.Fits part (d.history.snapshotOf commit)
  beside : subs.Pairwise Beside
  empty : ∀ sub ∈ subs, sub.commit ≠ none → d.disk.top.at? (site s sub).files = some (.dir [])

theorem Awaits.unentered (hd : Awaits part root d s commit subs) (hreg : d.history.Regular)
    (hlacks : d.history.Lacks part) (hpart : part ∈ headFile ++ commitsDir ++ refsDir) :
    ∀ sub ∈ subs, Unentered part root d s sub := fun sub hsub => by
  by_cases hnone : sub.commit = none
  · exact Or.inr ⟨hnone, hd.stands.siteAt?_of_untracked hreg hlacks hpart (hd.fits sub hsub) hnone⟩
  · exact Or.inl (Or.inl (hd.empty sub hsub hnone))

/-- The other submodules are still to be brought in when something was done at the first one. -/
theorem Awaits.of_spares (hd : Awaits part root d s commit (sub :: subs)) (hreg : d.history.Regular)
    (hspares : Spares (Among s [sub]) d d') : Awaits part root d' s commit subs := by
  rw [among_singleton] at hspares
  obtain ⟨w, v, hs⟩ := hd.stands.beside
  have hfirst := hd.fits sub List.mem_cons_self
  obtain ⟨hbeside, hrest⟩ := List.pairwise_cons.mp hd.beside
  refine ⟨hd.stands.of_inside hreg hspares fun u hu => ⟨sub, hfirst, hu.1.1, hu.2⟩, ?_, hrest, ?_⟩
  · rw [hspares.history]
    exact fun other hother => hd.fits other (List.mem_cons_of_mem sub hother)
  · intro other hother hcommit
    rw [← hd.empty other (List.mem_cons_of_mem sub hother) hcommit]
    refine hspares.apart _ ?_
    rintro u ⟨hknown, rfl⟩
    have hpaths := (hbeside other hother).paths hknown.1 hcommit
    refine ⟨apart_append hpaths s.files, ?_⟩
    rw [site_eq hs, site_eq hs]
    exact (apart_repositoryDir (not_mem_append_path hs.noRepository
      (hd.fits other (List.mem_cons_of_mem sub hother)).noRepository)
      (ne_nil_of_append_path other.path) root _).symm

/-- Right after a site was checked out all of its submodules are to be brought in. -/
theorem Fresh.awaits (hd : Fresh part root d s commit) (hreg : d.history.Regular)
    (hmod : d.history.Modular) (hlacks : d.history.Lacks part)
    (hsubs : d.history.submodules? commit = some subs) : Awaits part root d s commit subs := by
  have hfits : ∀ sub ∈ subs, sub.Fits part (d.history.snapshotOf commit) := fun sub hsub =>
    (hmod.snapshotOf commit).fits (hlacks.snapshotOf commit) hsubs hsub
  refine ⟨hd.stands hreg, hfits, (hmod.snapshotOf commit).pairwise (hreg.snapshotOf commit) hsubs,
    fun sub hsub hcommit => ?_⟩
  obtain ⟨id, hid⟩ := Option.ne_none_iff_exists'.mp hcommit
  exact hd.at?_submodule hreg ((hfits sub hsub).tracked id hid)

/-! ## What was come along -/

/-- Whether a visit has come along some paths from a site : each of them ends at a site that stands
at its commit, and nothing but some sites was touched. -/
structure Along (part : String) (root : Location) (U : Site → Prop) (s : Site)
    (commit : Option CommitId) (d d' : Depot) (reached : List (List Submodule)) : Prop where
  spares : Spares U d d'
  stands : ∀ p ∈ reached, Stands part root d' (endSite s p) (endCommit commit p)
  known : ∀ p ∈ reached, p ≠ [] → endCommit commit p ≠ none

variable {U : Site → Prop}

theorem Along.nil (hspares : Spares U d d') : Along part root U s commit d d' [] :=
  ⟨hspares, nofun, nofun⟩

theorem Along.self (hd : Stands part root d s commit) :
    Along part root (· = s) s commit d d [[]] :=
  ⟨.refl _ d, List.forall_mem_singleton.mpr hd, List.forall_mem_singleton.mpr fun h => (h rfl).elim⟩

/-- Paths inside of a submodule are paths of the site that it is in. -/
theorem Along.within (hx : Along part root (· = site s sub) (site s sub) sub.commit d' x reached)
    (hknown : sub.IsKnown) (hspares : Spares (Among s [sub]) d d') :
    Along part root (Among s [sub]) s commit d x (reached.map ([sub] ++ ·)) where
  spares := hspares.trans <| hx.spares.mono fun u hu =>
    ⟨u, ⟨sub, List.mem_singleton_self sub, hknown, hu⟩, List.prefix_rfl, List.prefix_rfl⟩
  stands p hp := by
    obtain ⟨path, hpath, rfl⟩ := List.mem_map.mp hp
    exact hx.stands path hpath
  known p hp _ := by
    obtain ⟨path, hpath, rfl⟩ := List.mem_map.mp hp
    cases path with
    | nil => exact hknown.1
    | cons next path => exact hx.known _ hpath (List.cons_ne_nil next path)

/-- Paths into the other submodules come after those into the first one, whose sites stay. -/
theorem Along.append (hd : Awaits part root d s commit (sub :: subs))
    (hfirst : Along part root (Among s [sub]) s commit d d' (reached.map ([sub] ++ ·)))
    (hknown : sub.IsKnown) (hx : Along part root (Among s subs) s commit d' x rest) :
    Along part root (Among s (sub :: subs)) s commit d x (reached.map ([sub] ++ ·) ++ rest) := by
  obtain ⟨w, v, hs⟩ := hd.stands.beside
  refine ⟨(hfirst.spares.among (by simp)).trans (hx.spares.among (by simp)), fun p hp => ?_,
    fun p hp => ?_⟩
  · rcases List.mem_append.mp hp with hp | hp
    · -- What is inside of the first submodule is apart from the sites of the others.
      refine (hfirst.stands p hp).of_apart hx.spares ?_
      rintro u ⟨other, hother, hotherKnown, rfl⟩
      obtain ⟨path, -, rfl⟩ := List.mem_map.mp hp
      have hbeside := (List.pairwise_cons.mp hd.beside).1 other hother
      have hsep := separate_site hs (hd.fits sub List.mem_cons_self)
        (hd.fits other (List.mem_cons_of_mem sub hother)) hbeside hknown hotherKnown
      exact hsep.symm.endSite path
    · exact hx.stands p hp
  · exact (List.mem_append.mp hp).elim (hfirst.known p) (hx.known p)

/-- The site itself is before the paths into its submodules. -/
theorem Along.top (hd : Awaits part root d s commit subs) (hreg : d.history.Regular)
    (hx : Along part root (Among s subs) s commit d x reached) :
    Along part root (· = s) s commit d x ([] :: reached) := by
  refine ⟨hx.spares.mono ?_, ?_, ?_⟩
  · rintro u ⟨sub, -, -, rfl⟩
    exact ⟨s, rfl, List.prefix_append _ _, prefix_directory_endSite [sub] s⟩
  · refine List.forall_mem_cons.mpr ⟨?_, hx.stands⟩
    refine hd.stands.of_inside hreg hx.spares ?_
    rintro u ⟨sub, hsub, hknown, rfl⟩
    exact ⟨sub, hd.fits sub hsub, hknown.1, rfl⟩
  · exact List.forall_mem_cons.mpr ⟨fun hnil => (hnil rfl).elim, hx.known⟩

/-! ## Visits -/

/-- How a visit ends that has come along some paths, with others left : with none, when the next one
cannot be entered, or when the settings at the end of the last one cannot be read. -/
inductive Ends (h : History) (s : Site) (commit : Option CommitId)
    (A : Depot → List (List Submodule) → Prop) (reached rest : List (List Submodule)) :
    Except Repository.Fault Unit × Depot → Prop where
  | whole {d' : Depot} : rest = [] → Ends h s commit A reached rest (.ok (), d')
  | entering (path : List Submodule) {sub : Submodule} {more : List (List Submodule)}
      {d₁ d' : Depot} {e : Repository.Fault} : A d₁ reached → rest = (path ++ [sub]) :: more →
      (enter (endSite s path) sub).perform d₁ = (.error e, d') →
      Ends h s commit A reached rest (.error e, d')
  | listing (before : List (List Submodule)) (path : List Submodule) {d' : Depot}
      {e : Repository.Fault} : reached = before ++ [path] →
      h.submodules? (endCommit commit path) = none → Ends h s commit A reached rest (.error e, d')

/-- Whether a visit has come along some paths and has left others, where nothing was brought in. -/
structure Descended (h : History) (s : Site) (commit : Option CommitId)
    (A : Depot → List (List Submodule) → Prop) (reached rest : List (List Submodule))
    (out : Except Repository.Fault Unit × Depot) : Prop where
  along : A out.2 reached
  left : ∀ p ∈ rest, ∀ id, ¬out.2.Tracks (endSite s p).files id
  ends : Ends h s commit A reached rest out

variable {A B : Depot → List (List Submodule) → Prop} {out : Except Repository.Fault Unit × Depot}

/-- Other paths were come along before. -/
theorem Descended.prepend (before : List (List Submodule))
    (hout : Descended h s commit A reached rest out)
    (hAB : ∀ x paths, A x paths → B x (before ++ paths)) :
    Descended h s commit B (before ++ reached) rest out where
  along := hAB _ _ hout.along
  left := hout.left
  ends := by
    cases hout.ends with
    | whole hrest => exact .whole hrest
    | entering path hA hrest hrun => exact .entering path (hAB _ _ hA) hrest hrun
    | listing last path hreached hsubs =>
      exact .listing (before ++ last) path (by rw [hreached, List.append_assoc]) hsubs

/-- A visit inside of a submodule, with other paths left after it if it fails. -/
theorem Descended.within (hout : Descended h (site s sub) sub.commit A reached rest out)
    (hAB : ∀ x paths, A x paths → B x (paths.map ([sub] ++ ·)))
    (hmore : ∀ p ∈ more, ∀ id, ¬out.2.Tracks (endSite s p).files id)
    (hok : out.1 = .ok () → more = []) :
    Descended h s commit B (reached.map ([sub] ++ ·)) (rest.map ([sub] ++ ·) ++ more) out where
  along := hAB _ _ hout.along
  left p hp := by
    rcases List.mem_append.mp hp with hp | hp
    · obtain ⟨path, hpath, rfl⟩ := List.mem_map.mp hp
      exact hout.left path hpath
    · exact hmore p hp
  ends := by
    cases hout.ends with
    | whole hrest =>
      rw [hrest, hok rfl]
      exact .whole rfl
    | entering path hA hrest hrun =>
      exact .entering (sub :: path) (hAB _ _ hA) (by rw [hrest]; rfl) hrun
    | listing last path hreached hsubs =>
      exact .listing (last.map ([sub] ++ ·)) (sub :: path) (by rw [hreached, List.map_append]; rfl)
        hsubs

theorem perform_visitEach_cons (next : Site → Depot.Action Unit) (s : Site) (sub : Submodule)
    (subs : List Submodule) (d : Depot) :
    (Nested.visitEach (enter s) next (sub :: subs)).perform d =
      match (enter s sub).perform d with
      | (.ok inner, d') =>
        match (next inner).perform d' with
        | (.ok _, d') => (Nested.visitEach (enter s) next subs).perform d'
        | (.error e, d') => (.error e, d')
      | (.error e, d') => (.error e, d') := by
  rw [Nested.visitEach, Depot.Action.perform_bind]
  cases (enter s sub).perform d with
  | mk result d' =>
    cases result with
    | error e => rfl
    | ok inner =>
      dsimp only
      rw [Depot.Action.perform_bind]
      cases (next inner).perform d' with
      | mk result d'' => cases result <;> rfl

section

variable (hreg : h.Regular) (hmod : h.Modular) (hlacks : h.Lacks part)
  (hpart : part ∈ headFile ++ commitsDir ++ refsDir)

include hreg hmod hlacks hpart

/-- The first submodule was visited, and the others are if that has not failed. -/
theorem exists_descended_cons (hh : d.history = h) (hd : Awaits part root d s commit (sub :: subs))
    (hknown : sub.IsKnown) (hspares : Spares (Among s [sub]) d d')
    (hpaths : [] :: h.nestings depth sub.commit = reached ++ rest)
    {result : Except Repository.Fault Unit} {d'' : Depot}
    (hout : Descended h (site s sub) sub.commit
      (Along part root (· = site s sub) (site s sub) sub.commit d') reached rest (result, d''))
    {next : Depot.Action Unit} (hnext : d''.history = h → Awaits part root d'' s commit subs →
      ∃ reached rest, pathsInto h depth subs = reached ++ rest ∧
        Descended h s commit (Along part root (Among s subs) s commit d'') reached rest
          (next.perform d'')) :
    ∃ reached rest, pathsInto h depth (sub :: subs) = reached ++ rest ∧
      Descended h s commit (Along part root (Among s (sub :: subs)) s commit d) reached rest
        (match (result, d'') with
        | (.ok _, d'') => next.perform d''
        | (.error e, d'') => (.error e, d'')) := by
  subst hh
  have hinside (x : Depot) (paths : List (List Submodule))
      (hx : Along part root (· = site s sub) (site s sub) sub.commit d' x paths) :
      Along part root (Among s [sub]) s commit d x (paths.map ([sub] ++ ·)) :=
    hx.within hknown hspares
  have hwhole := hinside _ _ hout.along
  have hhistory : d''.history = d.history := hwhole.spares.history
  have hothers := hd.of_spares hreg hwhole.spares
  have hsplit : pathsInto d.history depth (sub :: subs) =
      reached.map ([sub] ++ ·) ++ (rest.map ([sub] ++ ·) ++ pathsInto d.history depth subs) := by
    rw [pathsInto, List.flatMap_cons, hpaths, List.map_append, List.append_assoc]
    rfl
  cases result with
  | error e =>
    refine ⟨_, _, hsplit, hout.within (fun x paths hx => ?_) ?_ nofun⟩
    · have hx := hinside x paths hx
      exact ⟨hx.spares.among (by simp), hx.stands, hx.known⟩
    · exact not_tracks_of_unentered hmod hlacks
        (hothers.unentered (hhistory ▸ hreg) (hhistory ▸ hlacks) hpart)
  | ok _ =>
    obtain ⟨rfl⟩ := hout.ends
    obtain ⟨reached', rest', hpaths', hout'⟩ := hnext hhistory hothers
    refine ⟨_, rest', ?_, hout'.prepend _ fun x paths hx => .append hd hwhole hknown hx⟩
    rw [hsplit, List.map_nil, List.nil_append, hpaths', List.append_assoc]

/-- The submodules of a level, if those inside of each are visited so. -/
theorem exists_descended_each (hvisit : ∀ {s : Site} {commit : Option CommitId} {d : Depot},
      d.history = h → Fresh part root d s commit →
      ∃ reached rest, [] :: h.nestings depth commit = reached ++ rest ∧
        Descended h s commit (Along part root (· = s) s commit d) reached rest
          ((Nested.visit listAt enter depth s).perform d)) :
    ∀ {d : Depot}, d.history = h → Awaits part root d s commit subs →
      ∃ reached rest, pathsInto h depth subs = reached ++ rest ∧
        Descended h s commit (Along part root (Among s subs) s commit d) reached rest
          ((Nested.visitEach (enter s) (Nested.visit listAt enter depth) subs).perform d) := by
  -- After each submodule the others are still to be brought in, whatever was done inside of it.
  induction subs with
  | nil => exact fun {d} _ _ => ⟨[], [], rfl, .nil (.refl _ d), nofun, .whole rfl⟩
  | cons sub subs ih =>
    intro d hh hd
    subst hh
    obtain ⟨w, v, hs⟩ := hd.stands.beside
    have hsub := hd.fits sub List.mem_cons_self
    rw [perform_visitEach_cons]
    cases hcommit : sub.commit with
    | none =>
      have hnone : d.siteAt? (site s sub).files = none :=
        hd.stands.siteAt?_of_untracked hreg hlacks hpart hsub hcommit
      have hrun : (enter s sub).perform d = (.error .notRepository, d) := by
        rw [perform_enter_of_untracked hcommit, hnone]
        rfl
      rw [hrun]
      exact ⟨[], _, rfl, .nil (.refl _ d), not_tracks_of_unentered hmod hlacks
        (hd.unentered hreg hlacks hpart), .entering [] (.nil (.refl _ d)) rfl hrun⟩
    | some id =>
      have hempty := hd.empty sub List.mem_cons_self (by simp [hcommit])
      obtain ⟨d', hspares, ⟨⟨e, hrun⟩, hblank⟩ | ⟨hknown, hrun, hfresh⟩⟩ :=
        enter_cases hreg hs hsub hcommit hempty
      all_goals rw [← among_singleton] at hspares
      · have hothers := (hd.of_spares hreg hspares).unentered (hspares.history ▸ hreg)
          (hspares.history ▸ hlacks) hpart
        rw [hrun]
        exact ⟨[], _, rfl, .nil (hspares.among (by simp)), not_tracks_of_unentered hmod hlacks
          (List.forall_mem_cons.mpr ⟨Or.inl hblank, hothers⟩),
          .entering [] (.nil (.refl _ d)) rfl hrun⟩
      · -- The submodule is fresh, so what is inside of it is visited as from a clone.
        rw [hrun]
        dsimp only
        obtain ⟨reached, rest, hpaths, hout⟩ := hvisit hspares.history hfresh
        generalize (Nested.visit listAt enter depth (site s sub)).perform d' = out at hout
        exact exists_descended_cons hreg hmod hlacks hpart rfl hd hknown hspares hpaths hout ih

/-- A visit of a site that was just checked out, by induction on the levels that are left. -/
theorem exists_descended (depth : Nat) : ∀ {s : Site} {commit : Option CommitId} {d : Depot},
    d.history = h → Fresh part root d s commit →
      ∃ reached rest, [] :: h.nestings depth commit = reached ++ rest ∧
        Descended h s commit (Along part root (· = s) s commit d) reached rest
          ((Nested.visit listAt enter depth s).perform d) := by
  induction depth with
  | zero =>
    exact fun hh hd => ⟨[[]], [], rfl, .self (hd.stands (hh ▸ hreg)), nofun, .whole rfl⟩
  | succ depth ih =>
    intro s commit d hh hd
    subst hh
    rw [Nested.visit, Depot.Action.perform_bind, hd.perform_listAt hreg hmod]
    cases hsubs : d.history.submodules? commit with
    | none =>
      refine ⟨[[]], [], ?_, .self (hd.stands hreg), nofun, .listing [] [] rfl hsubs⟩
      rw [History.nestings, hsubs]
      rfl
    | some subs =>
      have hawaits := hd.awaits hreg hmod hlacks hsubs
      obtain ⟨reached, rest, hpaths, hout⟩ :=
        exists_descended_each hreg hmod hlacks hpart ih rfl hawaits
      refine ⟨[] :: reached, rest, ?_, hout.prepend [[]] fun x paths hx =>
        hx.top hawaits hreg⟩
      rw [List.cons_append, ← hpaths, History.nestings, hsubs]
      rfl

end

end Submodule

end Scaffold
