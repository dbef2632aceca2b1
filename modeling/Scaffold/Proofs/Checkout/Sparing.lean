import Scaffold.Proofs.Checkout.Sites

/-!
# What is left alone in a checkout

Bringing in submodules changes a depot at the sites of the submodules alone. `Spares` says so of two
depots and some sites : what is apart from the files and from the repositories stays, and so do the
directories above. Hence a site stays as it is when something is brought in apart from it
(`Stands.of_apart`), or inside of it (`Stands.of_inside`), since the files and the repository of a
submodule are apart from what the site has of its own.
-/

namespace Scaffold

open Scaffold.Path
open Disk Node Repository Submodule

namespace Submodule

variable {part : String} {root : Location} {d d' d'' : Depot} {s t u : Site}
  {commit : Option CommitId} {sub : Submodule}

/-! ## What is left alone -/

/-- Whether a depot is an older one but for what is at the files and in the repositories of some
sites. -/
structure Spares (U : Site → Prop) (d d' : Depot) : Prop where
  history : d'.history = d.history
  here : d'.disk.here = d.disk.here
  apart : ∀ l, (∀ u, U u → Apart u.files l ∧ Apart u.directory l) →
    d'.disk.top.at? l = d.disk.top.at? l
  dirs : ∀ l, (∀ u, U u → (u.files <+: l → u.files = l) ∧ (u.directory <+: l → u.directory = l)) →
    d.disk.top.layout l = some .dir → d'.disk.top.layout l = some .dir

namespace Spares

variable {U V : Site → Prop}

theorem refl (U : Site → Prop) (d : Depot) : Spares U d d :=
  ⟨rfl, rfl, fun _ _ => rfl, fun _ _ hl => hl⟩

theorem trans (h : Spares U d d') (h' : Spares U d' d'') : Spares U d d'' where
  history := h'.history.trans h.history
  here := h'.here.trans h.here
  apart l hl := (h'.apart l hl).trans (h.apart l hl)
  dirs l hl hdir := h'.dirs l hl (h.dirs l hl hdir)

/-- What is left alone at sites further up is left alone. -/
theorem mono (h : Spares U d d')
    (hUV : ∀ u, U u → ∃ v, V v ∧ v.files <+: u.files ∧ v.directory <+: u.directory) :
    Spares V d d' where
  history := h.history
  here := h.here
  apart l hl := h.apart l fun u hu => by
    obtain ⟨v, hv, ⟨r, hr⟩, ⟨r', hr'⟩⟩ := hUV u hu
    rw [← hr, ← hr']
    exact ⟨(hl v hv).1.append_left r, (hl v hv).2.append_left r'⟩
  dirs l hl := h.dirs l fun u hu => by
    obtain ⟨v, hv, hfiles, hdir⟩ := hUV u hu
    have hsame {x y : Location} (hxy : x <+: y) (hx : x <+: l → x = l) (hy : y <+: l) : y = l := by
      have heq := hx (hxy.trans hy)
      exact hy.eq_of_length_le (heq ▸ hxy.length_le)
    exact ⟨hsame hfiles (hl v hv).1, hsame hdir (hl v hv).2⟩

/-- A location that is apart from the sites, or a directory above them, is what it was. -/
theorem layout_eq (h : Spares U d d') {l : Location}
    (hl : ∀ u, U u → ∀ x ∈ [u.files, u.directory],
      Apart x l ∨ l <+: x ∧ d.disk.top.layout l = some .dir) :
    d'.disk.top.layout l = d.disk.top.layout l := by
  by_cases hdir : d.disk.top.layout l = some .dir
  · rw [hdir]
    refine h.dirs l (fun u hu => ?_) hdir
    have habove {x : Location} (hx : x ∈ [u.files, u.directory]) (hp : x <+: l) : x = l :=
      (hl u hu x hx).elim (fun hsep => (hsep.1 hp).elim) fun h => hp.eq_of_length_le h.1.length_le
    exact ⟨habove (by simp), habove (by simp)⟩
  · have hsep (u : Site) (hu : U u) {x : Location} (hx : x ∈ [u.files, u.directory]) : Apart x l :=
      (hl u hu x hx).resolve_right fun h => hdir h.2
    rw [layout, h.apart l fun u hu => ⟨hsep u hu (by simp), hsep u hu (by simp)⟩, layout]

end Spares

/-- Whether two sites are apart : the files of each from those of the other one and from its
repository, and the repositories from each other. -/
structure Separate (s t : Site) : Prop where
  files : Apart s.files t.files
  directory : Apart s.directory t.directory
  across : Apart s.files t.directory
  back : Apart s.directory t.files

theorem Separate.symm (h : Separate s t) : Separate t s :=
  ⟨h.files.symm, h.directory.symm, h.back.symm, h.across.symm⟩

section

variable {U : Site → Prop}

/-- A site stays when something is brought in apart from it. -/
theorem Stands.of_apart (h : Stands part root d s commit) (hspares : Spares U d d')
    (hU : ∀ u, U u → Separate u s) : Stands part root d' s commit := by
  have hfiles : d'.disk.top.at? s.files = d.disk.top.at? s.files :=
    hspares.apart _ fun u hu => ⟨(hU u hu).files, (hU u hu).back⟩
  have hdir : d'.disk.top.at? s.directory = d.disk.top.at? s.directory :=
    hspares.apart _ fun u hu => ⟨(hU u hu).across, (hU u hu).directory⟩
  refine ⟨h.beside, ?_, ?_, ?_⟩
  · rw [layout, at?_append, hfiles, ← at?_append]
    exact h.beacon
  · rw [TracksAt, hdir, hspares.history]
    exact h.tracks
  · rw [hfiles, hspares.history]
    exact h.shows

end

/-! ## Submodules of a site -/

/-- Files beside the repositories are apart from what is in the repository of the checkout. -/
theorem apart_repositoryDir {w : Location} (hw : repositoryDirName ∉ w) (hne : w ≠ [])
    (root v : Location) : Apart (root ++ w) (root ++ repositoryDirName :: v) := by
  obtain ⟨first, w, rfl⟩ := List.exists_cons_of_ne_nil hne
  have hfirst : first ≠ repositoryDirName := fun heq => hw (heq ▸ List.mem_cons_self)
  exact ⟨fun hp => hfirst (List.cons_prefix_cons.mp ((List.prefix_append_right_inj root).mp hp)).1,
    fun hp => hfirst (List.cons_prefix_cons.mp ((List.prefix_append_right_inj root).mp hp)).1.symm⟩

theorem apart_append {a b : Location} (h : Apart a b) (l : Location) : Apart (l ++ a) (l ++ b) :=
  ⟨fun hp => h.1 ((List.prefix_append_right_inj l).mp hp),
    fun hp => h.2 ((List.prefix_append_right_inj l).mp hp)⟩

theorem ne_nil_of_append_path {w : Location} (path : String) :
    w ++ Snapshot.locationOf path ≠ [] :=
  List.append_ne_nil_of_right_ne_nil w (Snapshot.locationOf_ne_nil path)

theorem not_mem_append_path {w : Location} (hw : repositoryDirName ∉ w) {path : String}
    (hpath : repositoryDirName ∉ Snapshot.locationOf path) :
    repositoryDirName ∉ w ++ Snapshot.locationOf path := fun hmem =>
  (List.mem_append.mp hmem).elim hw hpath

variable {snapshot : Snapshot} {w v : Location} {a b : Submodule}

/-- A submodule that can be brought in is beside the repositories as well. -/
theorem IsBeside.site (h : IsBeside part root s w v)
    (hsub : sub.Fits part snapshot) (hknown : sub.IsKnown) :
    IsBeside part root (site s sub) (w ++ Snapshot.locationOf sub.path)
      (v ++ "modules" :: Snapshot.locationOf sub.name) where
  files := by rw [site_eq h]
  directory := by rw [site_eq h]
  noRepository := not_mem_append_path h.noRepository hsub.noRepository
  noPart hmem := (List.mem_append.mp hmem).elim h.noPart (hsub.noPart hknown.1)
  names n hn := by
    rcases List.mem_append.mp hn with hn | hn
    · exact h.names n hn
    · rcases List.mem_cons.mp hn with rfl | hn
      · decide +kernel
      · exact hsub.names hknown n hn

/-- The files and the repository of a submodule are apart. -/
theorem apart_site (h : IsBeside part root s w v) (hsub : sub.Fits part snapshot) :
    Apart (site s sub).files (site s sub).directory := by
  rw [site_eq h]
  exact apart_repositoryDir (not_mem_append_path h.noRepository hsub.noRepository)
    (ne_nil_of_append_path sub.path) root _

/-- Submodules beside each other have separate sites. -/
theorem separate_site (h : IsBeside part root s w v) (ha : a.Fits part snapshot)
    (hb : b.Fits part snapshot) (hab : a.Beside b) (haknown : a.IsKnown) (hbknown : b.IsKnown) :
    Separate (site s a) (site s b) := by
  have hpaths := hab.paths haknown.1 hbknown.1
  have hnames := hab.names haknown hbknown
  rw [site_eq h, site_eq h]
  refine ⟨?_, ?_, ?_, ?_⟩
  · exact apart_append (apart_append hpaths w) root
  · have hbelow := apart_append (apart_append hnames (repositoryDirName :: (v ++ ["modules"]))) root
    simpa using hbelow
  · exact apart_repositoryDir (not_mem_append_path h.noRepository ha.noRepository)
      (ne_nil_of_append_path a.path) root _
  · exact (apart_repositoryDir (not_mem_append_path h.noRepository hb.noRepository)
      (ne_nil_of_append_path b.path) root _).symm

/-- What is in the repository of a site, but for those of submodules, is apart from where a submodule
is brought in. -/
theorem apart_site_directory (h : IsBeside part root s w v) (hsub : sub.Fits part snapshot)
    {l : Location} (hl : l ≠ []) (hmodules : ¬submodulesDir <+: l) :
    Apart (site s sub).files (s.directory ++ l) ∧ Apart (site s sub).directory (s.directory ++ l) := by
  rw [site_eq h, h.directory]
  refine ⟨(apart_repositoryDir (not_mem_append_path h.noRepository hsub.noRepository)
    (ne_nil_of_append_path sub.path) root v).append_right l, ?_⟩
  have hsep : Apart ("modules" :: Snapshot.locationOf sub.name) l := by
    obtain ⟨first, rest, rfl⟩ := List.exists_cons_of_ne_nil hl
    have hfirst : "modules" ≠ first := fun heq =>
      hmodules (heq ▸ List.prefix_append ["modules"] rest)
    exact ⟨fun hp => hfirst (List.cons_prefix_cons.mp hp).1,
      fun hp => hfirst (List.cons_prefix_cons.mp hp).1.symm⟩
  have happend := apart_append hsep (root ++ repositoryDirName :: v)
  simpa using happend

/-- What is in a checkout but not in its repository is apart from the repository of a submodule, or
above that of the site. -/
theorem apart_or_prefix_directory (h : IsBeside part root s w v) (sub : Submodule) {l : Location}
    (hl : l = [repositoryDirName] ∨ ∀ r, l ≠ repositoryDirName :: r) :
    Apart (site s sub).directory (root ++ l) ∨ root ++ l <+: s.directory := by
  rw [site_eq h, h.directory]
  rcases hl with rfl | hl
  · exact Or.inr ((List.prefix_append_right_inj root).mpr (List.prefix_append [_] v))
  · cases l with
    | nil => exact Or.inr (by simp)
    | cons first rest =>
      have hne : first ≠ repositoryDirName := fun heq => hl rest (heq ▸ rfl)
      exact Or.inl (apart_append ⟨fun hp => hne (List.cons_prefix_cons.mp hp).1.symm,
        fun hp => hne (List.cons_prefix_cons.mp hp).1⟩ root)

theorem append_ne_repository (hw : repositoryDirName ∉ w) {l : Location}
    (hl : w = [] → ∀ r, l ≠ repositoryDirName :: r) (r : Location) :
    w ++ l ≠ repositoryDirName :: r := by
  cases w with
  | nil => exact hl rfl r
  | cons first w => exact fun heq => hw ((List.cons.inj heq).1 ▸ List.mem_cons_self)

/-- Whether a site is that of a tracked submodule of another one. -/
def IsInside (part : String) (c : Snapshot) (s u : Site) : Prop :=
  ∃ sub : Submodule, sub.Fits part c ∧ sub.commit ≠ none ∧ u = site s sub

/-! ## Something brought in inside of a site -/

section

variable {U : Site → Prop} {c : Snapshot}

/-- The repository of a site that tracks something is a directory, as all above it. -/
theorem TracksAt.layout_above (h : TracksAt d s commit) {l : Location} (hl : l <+: s.directory) :
    d.disk.top.layout l = some .dir := by
  obtain ⟨n, r, hn, hr, -⟩ := h
  obtain ⟨entries, rfl⟩ :=
    isDir_eq_true.mp (Depot.isDir_of_isRepository (Depot.isRepository_of_ofDir hr))
  exact Node.layout_above (layout_eq_dir.mpr ⟨entries, hn⟩) hl

/-- What is in a checkout, but not in its repository unless above that of a site, is what it was if
it is apart from the files of submodules of the site, or a directory above them. -/
theorem Spares.layout_append (hspares : Spares U d d') (hU : ∀ u, U u → IsInside part c s u)
    (hs : IsBeside part root s w v) (htracks : TracksAt d s commit) {l : Location}
    (hl : l = [repositoryDirName] ∨ ∀ r, l ≠ repositoryDirName :: r)
    (hfiles : ∀ sub : Submodule, sub.Fits part c → sub.commit ≠ none →
      Apart (site s sub).files (root ++ l) ∨
        root ++ l <+: (site s sub).files ∧ d.disk.top.layout (root ++ l) = some .dir) :
    d'.disk.top.layout (root ++ l) = d.disk.top.layout (root ++ l) := by
  refine hspares.layout_eq fun u hu => ?_
  obtain ⟨sub, hsub, hcommit, rfl⟩ := hU u hu
  rw [List.forall_mem_cons, List.forall_mem_singleton]
  refine ⟨hfiles sub hsub hcommit, (apart_or_prefix_directory hs sub hl).imp_right fun hpre => ?_⟩
  refine ⟨hpre.trans ?_, htracks.layout_above hpre⟩
  rw [site, List.append_assoc]
  exact List.prefix_append _ _

/-- The repository of a site still tracks what it did. -/
theorem TracksAt.of_inside (h : TracksAt d s commit) (hs : IsBeside part root s w v)
    (hspares : Spares U d d') (hU : ∀ u, U u → IsInside part c s u) : TracksAt d' s commit := by
  have hdir : d'.disk.top.layout s.directory = some .dir := by
    refine (hspares.layout_eq fun u hu => ?_).trans (h.layout_above List.prefix_rfl)
    obtain ⟨sub, hsub, -, rfl⟩ := hU u hu
    rw [List.forall_mem_cons, List.forall_mem_singleton]
    constructor
    · rw [site_eq hs, hs.directory]
      exact Or.inl (apart_repositoryDir (not_mem_append_path hs.noRepository hsub.noRepository)
        (ne_nil_of_append_path sub.path) root v)
    · refine Or.inr ⟨?_, h.layout_above List.prefix_rfl⟩
      rw [site, List.append_assoc]
      exact List.prefix_append _ _
  obtain ⟨entries, hentries⟩ := layout_eq_dir.mp hdir
  obtain ⟨n, r, hn, hr, htracked⟩ := h
  -- What is in it is the same, but for the repositories of submodules.
  have hsame (l : Location) (hl : l ≠ []) (hmodules : ¬submodulesDir <+: l) :
      (Node.dir entries).at? l = n.at? l := by
    have hat : d'.disk.top.at? (s.directory ++ l) = d.disk.top.at? (s.directory ++ l) :=
      hspares.apart _ fun u hu => by
        obtain ⟨sub, hsub, -, rfl⟩ := hU u hu
        exact apart_site_directory hs hsub hl hmodules
    rwa [at?_append, at?_append, hentries, hn] at hat
  obtain ⟨r', hr', hlike⟩ := exists_like_of_same hr hsame
  exact ⟨_, r', hentries, hspares.history ▸ hr', hlike.tracked.trans htracked⟩

/-- A site stays when something is brought in at submodules of it. -/
theorem Stands.of_inside (h : Stands part root d s commit) (hreg : d.history.Regular)
    (hspares : Spares U d d')
    (hU : ∀ u, U u → IsInside part (d.history.snapshotOf commit) s u) :
    Stands part root d' s commit := by
  obtain ⟨w, v, hs⟩ := h.beside
  obtain ⟨files, hfiles, hshows⟩ := h.shows
  have hlayout {l : Location} (hout : (d.history.snapshotOf commit).Outside l) :
      d'.disk.top.layout (s.files ++ l) = d.disk.top.layout (s.files ++ l) := by
    rw [hs.files, List.append_assoc]
    refine hspares.layout_append hU hs h.tracks
      (Or.inr (append_ne_repository hs.noRepository fun _ => hout.noRepository))
      fun sub hsub hcommit => ?_
    obtain ⟨id, hid⟩ := Option.ne_none_iff_exists'.mp hcommit
    have hinner : (d.history.snapshotOf commit).Inner (Snapshot.locationOf sub.path) :=
      Or.inr ⟨_, _, hsub.tracked id hid, List.prefix_rfl⟩
    rw [← List.append_assoc, ← hs.files]
    refine (hshows.apart_or_dir hinner hout).imp (fun hsep => apart_append hsep s.files) ?_
    rintro ⟨hpre, hdir⟩
    exact ⟨(List.prefix_append_right_inj s.files).mpr hpre, by rwa [Node.layout_append hfiles]⟩
  have hbeacon : d'.disk.top.layout (s.files ++ [repositoryDirName]) =
      d.disk.top.layout (s.files ++ [repositoryDirName]) := by
    rw [hs.files, List.append_assoc]
    refine hspares.layout_append hU hs h.tracks ?_ fun sub hsub _ => Or.inl ?_
    · by_cases hnil : w = []
      · exact Or.inl (by rw [hnil, List.nil_append])
      · exact Or.inr (append_ne_repository hs.noRepository fun h => (hnil h).elim)
    · rw [← List.append_assoc, ← hs.files]
      exact apart_append (Snapshot.apart_repository hsub.noRepository []) s.files
  obtain ⟨m, hm, -⟩ := layout_eq_some.mp ((hlayout (Snapshot.outside_nil _)).trans
    (by rw [Node.layout_append hfiles, hshows.top]))
  rw [List.append_nil] at hm
  refine ⟨h.beside, hbeacon.trans h.beacon, h.tracks.of_inside hs hspares hU, m, hm, ?_⟩
  rw [hspares.history]
  refine hshows.of_outside (hreg.snapshotOf commit) fun l hout => ?_
  rw [← Node.layout_append hm, ← Node.layout_append hfiles]
  exact hlayout hout

end

end Submodule

end Scaffold
