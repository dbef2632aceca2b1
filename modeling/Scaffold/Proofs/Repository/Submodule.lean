import Scaffold.Proofs.Disk.Lookup
import Scaffold.Proofs.Disk.Proper
import Scaffold.Proofs.Repository.Depot
import Scaffold.Proofs.Repository.Way

/-!
# Submodules stay in the checkout

Bringing in the submodules of a checkout, and those inside of them, changes nothing outside of it
(`kept_bringInAll`), if the history is `Tidy` : the names on tracked paths are proper ones, none of
them is that of the directory of a repository, and some name that every repository has inside of it
is none of them either, so that no tracked directory is a repository.

A submodule could only get out along a link in a repository, or by a file beside the files of a
submodule that leads elsewhere. `Tame` says of what is in the checkout that it is no such thing,
and `Kept` joins this with what is outside. Every site that is come to has its files beside the
repositories of the checkout and its own repository in that of the checkout (`IsBeside`), or it has
its files inside of that repository (`IsWithin`), by what the files beside it lead to
(`Kept.isIn_of_siteAt?`). In the first case what is brought in is tame (`meets_prepare`,
`Kept.changeCopy`). In the second case there are no settings that say where a submodule is fetched
from, so nothing is brought in.
-/

namespace Scaffold

open Scaffold.Path
open Disk Repository Scaffold.Submodule

/-! ## Tidy histories -/

/-- Whether something that is tracked has proper names on its path, and neither the name of the
directory of a repository nor some other one. -/
structure Snapshot.Lacks (part : String) (e : String × Tracked) : Prop where
  names : ∀ n ∈ locationOf e.1, IsName n
  noRepository : repositoryDirName ∉ locationOf e.1
  noPart : part ∉ locationOf e.1

/-- Whether all that is tracked is so. -/
def History.Lacks (part : String) (h : History) : Prop :=
  ∀ id, ∀ e ∈ h.snapshot id, Snapshot.Lacks part e

/-- Whether a history tracks no repositories : the names on its paths are proper ones, none is that
of the directory of a repository, and one of the names that a repository has inside of it is none
of them. -/
def History.Tidy (h : History) : Prop :=
  ∃ part ∈ headFile ++ commitsDir ++ refsDir, h.Lacks part

theorem History.Lacks.of_mem {part : String} {h : History} (hh : h.Lacks part) {r : Repository}
    {e : String × Tracked} (he : e ∈ r.snapshot h) : Snapshot.Lacks part e := by
  unfold Repository.snapshot at he
  cases hr : r.tracked with
  | none => simp [hr] at he
  | some id => exact hh id e (by simpa [hr] using he)

theorem Snapshot.slash_not_mem {path n : String} (h : n ∈ locationOf path) : '/' ∉ n.toList := by
  obtain ⟨piece, hpiece, rfl⟩ := List.mem_map.mp h
  rw [String.toList_ofList]
  exact Text.not_mem_of_mem_pieces hpiece

/-- A repository has every part that it needs. -/
theorem Repository.exists_part {n : Node} (h : isRepository n = true) {part : String}
    (hpart : part ∈ headFile ++ commitsDir ++ refsDir) : ∃ m, n.at? [part] = some m := by
  simp only [isRepository, Bool.and_eq_true] at h
  obtain ⟨⟨hhead, hcommits⟩, hrefs⟩ := h
  simp only [headFile, commitsDir, refsDir, List.cons_append, List.nil_append, List.mem_cons,
    List.not_mem_nil, or_false] at hpart
  rcases hpart with rfl | rfl | rfl
  · exact ((Option.any_eq_true _ _).mp hhead).imp fun _ hm => hm.1
  · exact ((Option.any_eq_true _ _).mp hcommits).imp fun _ hm => hm.1
  · exact ((Option.any_eq_true _ _).mp hrefs).imp fun _ hm => hm.1

/-! ## What may be in a checkout -/

/-- Whether something may be at a location in a checkout : no link is in a repository, what stands
beside the files of a submodule leads into the repository of the checkout, some part of a repository
is nowhere beside the repositories, and the files in repositories are plain. -/
structure Submodule.Tame (part : String) (l : Location) (i : Item) : Prop where
  noLink : repositoryDirName ∈ l → ∀ target, i ≠ .link target
  leads : ∀ above, l = above ++ [repositoryDirName] → repositoryDirName ∉ above →
    (∀ bytes executable, i = .file bytes executable → LeadsIn above.length bytes) ∧
      (i = .dir → above = [])
  noPart : repositoryDirName ∉ l → part ∉ l
  plain : ∀ above name bytes executable, l = above ++ [name] → repositoryDirName ∈ above →
    i = .file bytes executable → [name] = headFile ∨ [name] = settingsFile ∨ IsPlain bytes

namespace Submodule

variable {part : String}

/-- What is in a repository is not beside the files of a submodule, but for its directory. -/
theorem eq_nil_of_cons_eq_concat {v above : Location} {name : String}
    (h : repositoryDirName :: v = above ++ [name]) (habove : repositoryDirName ∉ above) :
    above = [] ∧ v = [] := by
  cases above with
  | nil => exact ⟨rfl, (List.cons.inj h).2⟩
  | cons first above =>
    obtain ⟨rfl, -⟩ := List.cons.inj h
    exact (habove List.mem_cons_self).elim

theorem tame_inDirectory {v : Location} {i : Item} (h : InDirectory v i) :
    Tame part (repositoryDirName :: v) i where
  noLink _ := h.noLink
  leads above hl habove := by
    obtain ⟨rfl, rfl⟩ := eq_nil_of_cons_eq_concat hl habove
    refine ⟨fun bytes executable hi => ?_, fun _ => rfl⟩
    rw [h.top rfl] at hi
    cases hi
  noPart hl := (hl List.mem_cons_self).elim
  plain above name bytes executable hl habove hi := by
    cases above with
    | nil => cases habove
    | cons first above => exact h.plain above name bytes executable (List.cons.inj hl).2 hi

theorem tame_dir {l : Location} (h : repositoryDirName ∉ l) (hpart : part ∉ l) :
    Tame part l .dir where
  noLink hl := (h hl).elim
  leads above hl _ := (h (hl ▸ List.mem_append_right above List.mem_cons_self)).elim
  noPart _ := hpart
  plain _ _ _ _ _ _ := nofun

theorem tame_tracked {w : Location} (hw : repositoryDirName ∉ w) (hpart : part ∉ w)
    {e : String × Tracked} (h : Snapshot.Lacks part e) :
    Tame part (w ++ Snapshot.locationOf e.1) e.2.item := by
  have hfree : repositoryDirName ∉ w ++ Snapshot.locationOf e.1 := fun hmem =>
    (List.mem_append.mp hmem).elim hw h.noRepository
  exact {
    noLink := fun hl => (hfree hl).elim
    leads := fun above hl _ => (hfree (hl ▸ List.mem_append_right above List.mem_cons_self)).elim
    noPart := fun _ hmem => (List.mem_append.mp hmem).elim hpart h.noPart
    plain := fun _ _ _ _ hl habove _ => (hfree (hl ▸ List.mem_append_left _ habove)).elim }

theorem allows_tracked {w : Location} (hw : repositoryDirName ∉ w) (hpart : part ∉ w)
    {e : String × Tracked} (h : Snapshot.Lacks part e) :
    Snapshot.Allows (fun l i => Tame part (w ++ l) i) e where
  above _ hl _ := tame_dir
    (fun hmem => (List.mem_append.mp hmem).elim hw fun hmem => h.noRepository (hl.subset hmem))
    (fun hmem => (List.mem_append.mp hmem).elim hpart fun hmem => h.noPart (hl.subset hmem))
  item := tame_tracked hw hpart h

/-- What is written beside the files of a submodule is tame. -/
theorem tame_file {w : Location} (hw : repositoryDirName ∉ w) {bytes : ByteArray}
    {executable : Bool} (h : LeadsIn w.length bytes) :
    Tame part (w ++ [repositoryDirName]) (.file bytes executable) where
  noLink _ := nofun
  leads above hl _ := by
    obtain ⟨rfl, -⟩ := List.append_inj' hl rfl
    refine ⟨fun bytes' executable' hi => ?_, nofun⟩
    obtain ⟨rfl, -⟩ := Item.file.inj hi
    exact h
  noPart hl := (hl (List.mem_append_right w List.mem_cons_self)).elim
  plain above name _ _ hl habove _ := by
    obtain ⟨rfl, -⟩ := List.append_inj' hl rfl
    exact (hw habove).elim

/-! ## Depots with a checkout -/

variable {root : Location} {old d : Depot}

/-- Whether a depot is an older one in which something else is in a checkout, all of it tame. -/
structure Kept (part : String) (root : Location) (old d : Depot) : Prop where
  history : d.history = old.history
  tame : ∀ l i, d.disk.top.layout (root ++ l) = some i → Tame part l i
  outside : ∀ l, Apart root l → d.disk.top.layout l = old.disk.top.layout l

namespace Kept

/-- Forcing in something tame, with the directories above it. -/
theorem force (h : Kept part root old d) {x : Location} {n : Node}
    (hdirs : ∀ l, l <+: x → l ≠ x → Tame part l .dir)
    (hnew : ∀ r i, n.layout r = some i → Tame part (x ++ r) i) :
    Kept part root old
      { d with disk := { d.disk with top := Node.force n (root ++ x) d.disk.top } } where
  history := h.history
  tame l i hl := by
    have hgains := Node.gains_force n (P := fun l i => ∀ r, l = root ++ r → Tame part r i)
      (l := root ++ x) d.disk.top ?_ ?_
    · exact (hgains _ i hl).elim (h.tame l i) fun hp => hp l rfl
    · rintro _ hpre hne r rfl
      exact hdirs r (by simpa using hpre) fun heq => hne (heq ▸ rfl)
    · intro r i hr r' hr'
      rw [List.append_assoc] at hr'
      exact List.append_cancel_left hr' ▸ hnew r i hr
  outside l hl := by
    rw [← h.outside l hl]
    exact Node.layout_force_of_apart n (hl.append_left x) d.disk.top

/-- Storing something tame. -/
theorem stored (h : Kept part root old d) {x : Location} {n : Node}
    (hnew : ∀ r i, n.layout r = some i → Tame part (x ++ r) i) :
    Kept part root old (d.stored (root ++ x) n) where
  history := h.history
  tame l i hl := by
    have hgains := Node.gains_put (P := fun l i => ∀ r, l = root ++ r → Tame part r i) (some n)
      (l := root ++ x) d.disk.top ?_
    · exact (hgains _ i hl).elim (h.tame l i) fun hp => hp l rfl
    · intro m hm r i hr r' hr'
      obtain rfl := Option.some.inj hm
      rw [List.append_assoc] at hr'
      exact List.append_cancel_left hr' ▸ hnew r i hr
  outside l hl := by
    rw [← h.outside l hl]
    exact Node.layout_put_of_apart (hl.append_left x) (some n) d.disk.top

/-- What is in the checkout is tame where it stands. -/
theorem tame_of_at? (h : Kept part root old d) {x : Location} {n : Node}
    (hn : d.disk.top.at? (root ++ x) = some n) {r : Location} {i : Item}
    (hr : n.layout r = some i) : Tame part (x ++ r) i := by
  refine h.tame _ _ ?_
  rw [← List.append_assoc, Node.layout_append hn, hr]

theorem noLink (h : Kept part root old d) {l : Location} (hl : repositoryDirName ∈ l)
    (target : String) : d.disk.top.layout (root ++ l) ≠ some (.link target) := fun hlink =>
  (h.tame l _ hlink).noLink hl target rfl

/-- Only the repository at the top of the checkout has something in it. -/
theorem eq_nil_of_layout (h : Kept part root old d) {above r : Location}
    (habove : repositoryDirName ∉ above) (hr : r ≠ []) {i : Item}
    (hi : d.disk.top.layout (root ++ (above ++ repositoryDirName :: r)) = some i) : above = [] := by
  have hdir : d.disk.top.layout (root ++ (above ++ [repositoryDirName])) = some .dir := by
    refine Node.layout_of_append hr ?_
    rw [List.append_assoc, List.append_assoc, List.singleton_append, hi]
    exact Option.some_ne_none i
  exact ((h.tame _ _ hdir).leads above rfl habove).2 rfl

end Kept

/-! ## Sites in a checkout -/

/-- Whether a site has its files beside the repositories in a checkout, and its own repository in
that of the checkout. -/
structure IsBeside (part : String) (root : Location) (s : Site) (w v : Location) : Prop where
  files : s.files = root ++ w
  directory : s.directory = root ++ repositoryDirName :: v
  noRepository : repositoryDirName ∉ w
  noPart : part ∉ w
  names : ∀ n ∈ v, IsName n ∧ '\n' ∉ n.toList

/-- Whether a site has its files in the repository of a checkout. -/
def IsWithin (root : Location) (s : Site) : Prop := ∃ v, s.files = root ++ repositoryDirName :: v

/-- Whether a site is in a checkout, in one of these ways. -/
def IsIn (part : String) (root : Location) (s : Site) : Prop :=
  (∃ w v, IsBeside part root s w v) ∨ IsWithin root s

theorem isName_repositoryDirName : IsName repositoryDirName := by decide +kernel

/-- What a name in a repository leads to is what stands there, since it is no link. -/
theorem Kept.at?_of_statFrom (h : Kept part root old d) {x l : Location} {name : String} {n : Node}
    (hname : IsName name) (hx : repositoryDirName ∈ x ++ [name])
    (hs : d.statFrom (root ++ x) name = some (l, n)) :
    l = root ++ (x ++ [name]) ∧ d.disk.top.at? (root ++ (x ++ [name])) = some n := by
  rw [← List.append_assoc]
  refine Depot.at?_of_statFrom hname (fun target => ?_) hs
  rw [List.append_assoc]
  exact h.noLink hx target

/-- What says where a repository is stands beside the files. -/
theorem Kept.exists_at?_of_directoryOf? (h : Kept part root old d) {x l : Location}
    (hl : d.directoryOf? (root ++ x) = some l) :
    ∃ n, d.disk.top.at? (root ++ (x ++ [repositoryDirName])) = some n := by
  obtain ⟨⟨beside, n⟩, hstat, -⟩ := Option.bind_eq_some_iff.mp hl
  exact ⟨n, (h.at?_of_statFrom isName_repositoryDirName
    (List.mem_append_right x List.mem_cons_self) hstat).2⟩

/-- What stands beside files in a checkout leads into the repository of the checkout. -/
theorem Kept.exists_of_directoryOf? (h : Kept part root old d) {w l : Location}
    (hw : repositoryDirName ∉ w) (hl : d.directoryOf? (root ++ w) = some l) :
    ∃ v, l = root ++ repositoryDirName :: v ∧ ∀ n ∈ v, IsName n ∧ '\n' ∉ n.toList := by
  obtain ⟨⟨beside, n⟩, hstat, hn⟩ := Option.bind_eq_some_iff.mp hl
  obtain ⟨rfl, hat⟩ := h.at?_of_statFrom isName_repositoryDirName
    (List.mem_append_right w List.mem_cons_self) hstat
  have htame : Tame part (w ++ [repositoryDirName]) n.item :=
    h.tame _ _ (Node.layout_eq_some.mpr ⟨n, hat, rfl⟩)
  obtain ⟨hfile, hdir⟩ := htame.leads w rfl hw
  cases n with
  | dir entries =>
    obtain rfl := hdir rfl
    obtain rfl := Option.some.inj hn
    exact ⟨[], by simp, by simp⟩
  | link target => cases hn
  | file bytes executable =>
    obtain ⟨text, htext, hn⟩ := Option.bind_eq_some_iff.mp hn
    obtain ⟨path, hpath, hn⟩ := Option.bind_eq_some_iff.mp hn
    obtain ⟨found, hfound, hn⟩ := Option.bind_eq_some_iff.mp hn
    obtain rfl := Option.some.inj hn
    refine exists_of_leadsIn (fun r target => ?_) (hfile bytes executable rfl) htext hpath hfound
    rw [List.append_assoc]
    exact h.noLink List.mem_cons_self target

/-- A repository at a location has a part of it below the location. -/
theorem exists_of_hasRepository (hpart : part ∈ headFile ++ commitsDir ++ refsDir) {l : Location}
    (h : d.hasRepository l = true) : ∃ i, d.disk.top.layout (l ++ [part]) = some i := by
  obtain ⟨n, hn, hrep⟩ := (Option.any_eq_true _ _).mp h
  obtain ⟨m, hm⟩ := exists_part hrep hpart
  exact ⟨m.item, by rw [Node.layout_append hn, Node.layout_eq_some.mpr ⟨m, hm, rfl⟩]⟩

/-- Beside the repositories nothing is a repository by itself, so a site there is told by what
stands beside its files. -/
theorem Kept.isBeside_of_siteAt? (h : Kept part root old d)
    (hpart : part ∈ headFile ++ commitsDir ++ refsDir) {x : Location}
    (hx : repositoryDirName ∉ x) {s : Site} (hs : d.siteAt? (root ++ x) = some s) :
    d.directoryOf? (root ++ x) = some s.directory ∧ d.hasRepository s.directory = true ∧
      ∃ v, IsBeside part root s x v := by
  unfold Depot.siteAt? at hs
  split at hs
  · rename_i directory hdir
    obtain rfl := Option.some.inj hs
    obtain ⟨hdir, hhas⟩ := Option.filter_eq_some_iff.mp hdir
    refine ⟨hdir, hhas, ?_⟩
    obtain ⟨v, rfl, hv⟩ := h.exists_of_directoryOf? hx hdir
    obtain ⟨n, hn⟩ := h.exists_at?_of_directoryOf? hdir
    have habove : d.disk.top.layout (root ++ x) = some .dir := by
      refine Node.layout_of_append (List.cons_ne_nil repositoryDirName []) ?_
      rw [List.append_assoc, Node.layout_eq_some.mpr ⟨n, hn, rfl⟩]
      exact Option.some_ne_none _
    exact ⟨v, rfl, rfl, hx, (h.tame x _ habove).noPart hx, hv⟩
  · split at hs
    · -- The directory would be a repository by itself, and so have the part that is nowhere here.
      rename_i hrep
      obtain ⟨i, hi⟩ := exists_of_hasRepository hpart hrep
      rw [List.append_assoc] at hi
      have hne : ∀ p ∈ headFile ++ commitsDir ++ refsDir, p ≠ repositoryDirName := by decide
      have hfree : repositoryDirName ∉ x ++ [part] := fun hmem =>
        (List.mem_append.mp hmem).elim hx fun hmem =>
          hne part hpart (List.mem_singleton.mp hmem).symm
      exact ((h.tame _ i hi).noPart hfree (List.mem_append_right x List.mem_cons_self)).elim
    · cases hs

/-- In a repository there are only sites with files there, and the one of the checkout itself. -/
theorem Kept.isIn_of_siteAt?_within (h : Kept part root old d)
    (hpart : part ∈ headFile ++ commitsDir ++ refsDir) {above v : Location}
    (habove : repositoryDirName ∉ above) {s : Site}
    (hs : d.siteAt? (root ++ (above ++ repositoryDirName :: v)) = some s) :
    IsBeside part root s [] [] ∨ IsWithin root s := by
  -- Whatever says that there is a site stands in a repository, which is that of the checkout.
  have hnil {name : String} {i : Item} (hi : d.disk.top.layout
      (root ++ (above ++ repositoryDirName :: v ++ [name])) = some i) : above = [] :=
    h.eq_nil_of_layout habove (r := v ++ [name]) (by simp) (i := i) (by simpa using hi)
  unfold Depot.siteAt? at hs
  split at hs
  · rename_i directory hdir
    obtain rfl := Option.some.inj hs
    obtain ⟨n, hn⟩ := h.exists_at?_of_directoryOf? (Option.filter_eq_some_iff.mp hdir).1
    obtain rfl := hnil (Node.layout_eq_some.mpr ⟨n, hn, rfl⟩)
    exact Or.inr ⟨v, rfl⟩
  · split at hs
    · rename_i hrep
      obtain rfl := Option.some.inj hs
      obtain ⟨i, hi⟩ := exists_of_hasRepository hpart hrep
      rw [List.append_assoc] at hi
      obtain rfl := hnil hi
      rcases List.eq_nil_or_concat' v with rfl | ⟨v, last, rfl⟩
      · refine Or.inl ⟨?_, rfl, List.not_mem_nil, List.not_mem_nil, by simp⟩
        simp
      · refine Or.inr ⟨v, ?_⟩
        rw [List.nil_append, ← List.cons_append, ← List.append_assoc, List.dropLast_concat]
    · cases hs

theorem Kept.isIn_of_siteAt? (h : Kept part root old d)
    (hpart : part ∈ headFile ++ commitsDir ++ refsDir) {x : Location} {s : Site}
    (hs : d.siteAt? (root ++ x) = some s) : IsIn part root s := by
  by_cases hx : repositoryDirName ∈ x
  · obtain ⟨above, v, rfl, habove⟩ := List.eq_append_cons_of_mem hx
    exact (h.isIn_of_siteAt?_within hpart habove hs).imp_left fun hs => ⟨[], [], hs⟩
  · obtain ⟨-, -, v, hv⟩ := h.isBeside_of_siteAt? hpart hx hs
    exact Or.inl ⟨x, v, hv⟩

/-! ## The submodules of a site -/

/-- Where a submodule of settings and of a snapshot is from. What settings are about is tracked
where it has a commit, and what is tracked alone has its path for a name. -/
structure IsOf (settings : Entries String) (s : Snapshot) (sub : Submodule) : Prop where
  tracked : ∀ commit, sub.commit = some commit → (sub.path, .submodule commit) ∈ s
  written : (∃ other ∈ ofSettings settings, other.name = sub.name ∧ other.url = sub.url) ∨
    sub.url = none ∧ ∃ e ∈ s, e.1 = sub.name

/-- Whether a table has such submodules, each at its path. -/
def AllOf (settings : Entries String) (s : Snapshot) (subs : Entries Submodule) : Prop :=
  ∀ e ∈ subs, e.2.path = e.1 ∧ IsOf settings s e.2

variable {settings : Entries String} {s : Snapshot}

theorem AllOf.insert {subs : Entries Submodule} (h : AllOf settings s subs) {sub : Submodule}
    (hsub : IsOf settings s sub) : AllOf settings s (Entries.insert sub.path sub subs) := by
  intro e he
  rcases Entries.eq_or_mem_of_mem_insert he with rfl | he
  · exact ⟨rfl, hsub⟩
  · exact h e he

theorem AllOf.get? : ∀ {subs : Entries Submodule}, AllOf settings s subs → ∀ {path : String}
    {sub : Submodule}, Entries.get? path subs = some sub → sub.path = path ∧ IsOf settings s sub
  | [], _, _, _, hsub => by cases hsub
  | (k, v) :: subs, h, path, sub, hsub => by
    rw [Entries.get?] at hsub
    split at hsub
    · rename_i hk
      exact hk ▸ Option.some.inj hsub ▸ h (k, v) List.mem_cons_self
    · exact AllOf.get? (fun e he => h e (List.mem_cons_of_mem _ he)) hsub

theorem allOf_ofSettings : AllOf settings s
    (Entries.ofPairs ((ofSettings settings).map fun sub => (sub.path, sub))) := by
  have hall : ∀ sub ∈ ofSettings settings, IsOf settings s sub := fun sub hsub => {
    tracked := fun commit hcommit => by
      obtain ⟨name, -, rfl⟩ := List.mem_map.mp hsub
      cases hcommit
    written := Or.inl ⟨sub, hsub, rfl, rfl⟩ }
  refine List.foldlRecOn _ _ (fun e he => ?_) fun subs h e he => ?_
  · cases he
  · obtain ⟨sub, hsub, rfl⟩ := List.mem_map.mp he
    exact h.insert (hall sub hsub)

/-- A submodule that is tracked is the one that settings are about, or has its path as its
name. -/
theorem AllOf.track {subs : Entries Submodule} (h : AllOf settings s subs) {path : String}
    {commit : CommitId} (he : (path, .submodule commit) ∈ s) :
    AllOf settings s (track subs path commit) := by
  unfold Submodule.track
  cases hget : Entries.get? path subs with
  | some sub =>
    obtain ⟨rfl, hsub⟩ := h.get? hget
    have hnew : IsOf settings s { sub with commit := some commit } :=
      { tracked := fun _ hcommit => Option.some.inj hcommit ▸ he, written := hsub.written }
    exact h.insert hnew
  | none =>
    have hnew : IsOf settings s { name := path, path, commit := some commit } :=
      { tracked := fun _ hcommit => Option.some.inj hcommit ▸ he
        written := Or.inr ⟨rfl, _, he, rfl⟩ }
    exact h.insert hnew

theorem isOf_of_mem_all : ∀ sub ∈ all settings s, IsOf settings s sub := by
  intro sub hsub
  obtain ⟨e, he, rfl⟩ := List.mem_map.mp hsub
  refine (List.foldlRecOn s _ (motive := AllOf settings s) allOf_ofSettings ?_ e he).2
  intro subs h e he
  obtain ⟨path, t⟩ := e
  cases t with
  | submodule commit => exact h.track he
  | file bytes executable => exact h
  | link target => exact h

theorem ne_up_of_isInside {name n : String} (h : isInside name = true)
    (hn : n ∈ Snapshot.locationOf name) : n ≠ ".." := by
  rintro rfl
  obtain ⟨piece, hpiece, hdots⟩ := List.mem_map.mp hn
  have hup : partOf? piece = some .up := by
    rw [← String.toList_inj, String.toList_ofList] at hdots
    rw [hdots]
    rfl
  have hmem : Part.up ∈ partsOf name.toList :=
    List.mem_append_right _ (List.mem_filterMap.mpr ⟨piece, hpiece, hup⟩)
  have hescapes : escapes name = true := List.any_eq_true.mpr ⟨.up, hmem, by decide⟩
  rw [isInside, containedJoin_eq, if_pos hescapes] at h
  cases h

/-- Whether a submodule has its repository among those of submodules, and its files beside the
repositories if it is tracked. -/
structure IsFine (part : String) (sub : Submodule) : Prop where
  name : ∀ n ∈ Snapshot.locationOf sub.name, n ≠ ".."
  path : sub.commit ≠ none →
    repositoryDirName ∉ Snapshot.locationOf sub.path ∧ part ∉ Snapshot.locationOf sub.path

theorem IsOf.isFine {sub : Submodule} (h : IsOf settings s sub)
    (hs : ∀ e ∈ s, Snapshot.Lacks part e) : IsFine part sub where
  name n hn := by
    rcases h.written with ⟨other, hother, hname, -⟩ | ⟨-, e, he, hname⟩
    · obtain ⟨name, hmem, rfl⟩ := List.mem_map.mp hother
      rw [← hname] at hn
      exact ne_up_of_isInside (List.mem_filter.mp (List.mem_eraseDups.mp hmem)).2 hn
    · exact ((hs e he).names n (hname ▸ hn)).2.2.1
  path hcommit := by
    obtain ⟨commit, hcommit⟩ := Option.ne_none_iff_exists'.mp hcommit
    have he := hs _ (h.tracked commit hcommit)
    exact ⟨he.noRepository, he.noPart⟩

/-- A plain file is about no submodules. -/
theorem ofSettings_of_isPlain {bytes : ByteArray} (h : IsPlain bytes) {text : String}
    (ht : String.fromUTF8? bytes = some text) (hs : Settings.ofText text = some settings) :
    ofSettings settings = [] := by
  rcases h with rfl | ⟨id, rfl⟩ <;> rw [fromUTF8?_toUTF8] at ht <;> obtain rfl := Option.some.inj ht
  · obtain rfl : [] = settings := Option.some.inj hs
    rfl
  · obtain ⟨key, hkey⟩ := exists_ofText_commitText id
    obtain rfl := Option.some.inj (hkey.symm.trans hs)
    have hnone : nameOfKey? (String.ofList ('c' :: key)) = none := by
      rw [nameOfKey?, without?, if_neg (by simp [keyLead])]
      rfl
    simp only [ofSettings, List.filterMap_cons, hnone, List.filterMap_nil]
    rfl

/-! ## Bringing submodules in -/

open Depot.Action

/-- The settings in a repository are plain. -/
theorem Kept.ofSettings_of_statFrom (hd : Kept part root old d) {v l : Location}
    {bytes : ByteArray} {executable : Bool}
    (h : d.statFrom (root ++ repositoryDirName :: v) settingsName =
      some (l, .file bytes executable)) {text : String}
    (ht : String.fromUTF8? bytes = some text) (hs : Settings.ofText text = some settings) :
    ofSettings settings = [] := by
  have hmem : repositoryDirName ∈ repositoryDirName :: v ++ [settingsName] := by simp
  have hat := (hd.at?_of_statFrom (by decide +kernel) hmem h).2
  have htame := hd.tame _ _ (Node.layout_eq_file.mpr hat)
  rcases htame.plain _ _ bytes executable rfl List.mem_cons_self rfl with hname | hname | hplain
  · exact absurd hname (by decide)
  · exact absurd hname (by decide)
  · exact ofSettings_of_isPlain hplain ht hs

/-- What is found at a site : submodules that are fine, and none of which is known where to be
fetched from if the site is in a repository. -/
theorem meets_listAt (hlacks : old.history.Lacks part) (s : Site) :
    Meets (Kept part root old) (listAt s) fun subs =>
      ∀ sub ∈ subs, IsFine part sub ∧ (IsWithin root s → sub.url = none) := by
  unfold listAt
  refine meets_get fun d hd => ?_
  refine Meets.bind (Q := fun _ => True) (meets_inspect fun _ _ _ _ => trivial) fun r _ => ?_
  have hall (settings : Entries String) (h : IsWithin root s → ofSettings settings = []) :
      Meets (Kept part root old) (pure (all settings (r.snapshot d.history)))
        fun subs => ∀ sub ∈ subs, IsFine part sub ∧ (IsWithin root s → sub.url = none) := by
    refine meets_pure fun sub hsub => ?_
    have hof := isOf_of_mem_all sub hsub
    refine ⟨hof.isFine fun e he => hlacks.of_mem (hd.history ▸ he), fun hs => ?_⟩
    rcases hof.written with ⟨other, hother, -⟩ | ⟨hurl, -⟩
    · rw [h hs] at hother
      cases hother
    · exact hurl
  dsimp only
  split
  · exact (meets_pure fun _ => by simp [ofSettings]).bind hall
  · rename_i hstat
    split
    · rename_i settings htext
      obtain ⟨text, htext, hsettings⟩ := Option.bind_eq_some_iff.mp htext
      refine (meets_pure fun hs => ?_).bind hall
      obtain ⟨v, hv⟩ := hs
      rw [hv] at hstat
      exact hd.ofSettings_of_statFrom hstat htext hsettings
    · exact (meets_throw _).bind hall
  · exact (meets_throw _).bind hall

theorem meets_prepare {w inner name : Location} (hw : repositoryDirName ∉ w) (hpart : part ∉ w)
    (hinner : ∀ n ∈ inner, IsName n ∧ '\n' ∉ n.toList)
    (hname : ∀ n ∈ name, '/' ∉ n.toList ∧ n ≠ "..") (r : Repository) :
    Meets (Kept part root old)
      (prepare { directory := root ++ repositoryDirName :: (inner ++ "modules" :: name)
                 files := root ++ w } r) fun _ => True := by
  refine meets_modify fun d hd => ?_
  -- The repository is made first, and then the file that leads to it.
  have hmade := hd.force (x := repositoryDirName :: (inner ++ "modules" :: name)) (n := create r)
    ?_ ?_
  · have hfile := hmade.force (x := w ++ [repositoryDirName])
      (n := textFile (siteText
        { directory := root ++ repositoryDirName :: (inner ++ "modules" :: name)
          files := root ++ w })) ?_ ?_
    · rw [← List.append_assoc] at hfile
      exact hfile
    · intro l hl hne
      have hpre := (List.prefix_concat_iff.mp hl).resolve_left hne
      exact tame_dir (fun hmem => hw (hpre.subset hmem)) fun hmem => hpart (hpre.subset hmem)
    · intro l i hl
      obtain ⟨rfl, rfl⟩ := Node.eq_nil_of_layout rfl hl
      rw [List.append_nil]
      exact tame_file hw (leadsIn_siteText hw hinner hname)
  · intro l hl hne
    cases l with
    | nil => exact tame_dir List.not_mem_nil List.not_mem_nil
    | cons first l =>
      obtain ⟨rfl, -⟩ := List.cons_prefix_cons.mp hl
      exact tame_inDirectory (inDirectory_dir l)
  · intro l i hl
    exact tame_inDirectory ((inDirectory_create r hl).below _)

theorem files_of_workingCopy {s : Site} {copy : WorkingCopy} (h : d.workingCopy s = .ok copy) :
    d.disk.top.at? s.files = some copy.files := by
  unfold Depot.workingCopy at h
  split at h
  · rename_i files hfiles
    cases hr : d.read s with
    | error e =>
      rw [hr] at h
      cases h
    | ok r =>
      rw [hr] at h
      rw [hfiles, ← Except.ok.inj h]
  · cases h

/-- Checking out what a repository in the checkout is at. -/
theorem Kept.changeCopy (hlacks : old.history.Lacks part) (hd : Kept part root old d) {s : Site}
    {w v : Location} (hw : repositoryDirName ∉ w) (hpart : part ∉ w) (hfiles : s.files = root ++ w)
    (hdir : s.directory = root ++ repositoryDirName :: v) :
    Kept part root old
      ((Depot.changeCopy s (Pull.checkOutHead old.history)).perform d).2 := by
  have hcases := Depot.exists_of_changeCopy s (Pull.checkOutHead old.history) d
  generalize ((Depot.changeCopy s (Pull.checkOutHead old.history)).perform d).2 = d' at hcases ⊢
  rcases hcases with rfl | ⟨copy, hcopy, h⟩
  · exact hd
  · have hat := files_of_workingCopy hcopy
    rw [hfiles] at hat h
    rw [hdir] at h
    -- The files are tame since what is tracked is, and what is written into the repository is too.
    have hchecked := hd.stored (x := w)
      (n := ((Pull.checkOutHead old.history).perform copy).2.files) fun r i hr => by
        have hgains := Snapshot.gains_checkOut (P := fun l i => Tame part (w ++ l) i)
          (s := copy.repository.headCommit?.elim [] old.history.snapshot)
          (tame_dir (by simpa using hw) (by simpa using hpart))
          (fun e he => allows_tracked hw hpart ?_)
          (copy.repository.snapshot old.history) copy.files
        · exact (hgains r i hr).elim (hd.tame_of_at? hat) id
        · cases hid : copy.repository.headCommit? with
          | none => simp [hid] at he
          | some id => exact hlacks id e (by simpa [hid] using he)
    rcases h with rfl | ⟨n, hn, rfl⟩
    · exact hchecked
    · refine hchecked.stored fun r i hr => ?_
      rcases gains_save _ _ n r i hr with hold | hin
      · exact hchecked.tame_of_at? hn hold
      · exact tame_inDirectory (hin.below v)

theorem site_eq {s : Site} {w v : Location} (h : IsBeside part root s w v) (sub : Submodule) :
    site s sub =
      { directory := root ++
          repositoryDirName :: (v ++ "modules" :: Snapshot.locationOf sub.name)
        files := root ++ (w ++ Snapshot.locationOf sub.path) } := by
  simp [site, h.files, h.directory, submodulesDir]

/-- Bringing a submodule in is to prepare its site and to check out there. -/
theorem meets_bringIn_of {I : Depot → Prop} {h : History} (hhistory : ∀ d, I d → d.history = h)
    {s : Site} {sub : Submodule}
    (hprepare : ∀ r, Meets I (prepare (site s sub) r) fun _ => True)
    (hcheck : Meets I (Depot.changeCopy (site s sub) (Pull.checkOutHead h)) fun _ => True)
    (commit : CommitId) : Meets I (bringIn s sub commit) fun _ => True := by
  unfold bringIn
  refine Meets.bind (Q := fun _ => True) (meets_inspect fun _ _ _ _ => trivial) fun r _ => ?_
  split
  · split
    · rename_i url _
      refine (hprepare _).bind fun _ _ => ?_
      refine Meets.bind (Q := fun _ => True) (meets_inspect fun _ _ _ _ => trivial)
        fun remote _ => ?_
      have hrest : Meets I (do
          prepare (site s sub)
            { head := some (.detached commit), commits := remote.commits, origin := some url }
          let h := (← get).history
          Depot.changeCopy (site s sub) (Pull.checkOutHead h)) fun _ => True :=
        (hprepare _).bind fun _ _ => meets_get fun d hd => by
          rw [hhistory d hd]
          exact hcheck
      dsimp only
      split
      · exact (meets_throw (Q := fun _ => True) _).bind fun _ _ => hrest
      · exact hrest
    · exact meets_throw _
  · exact meets_throw _

theorem meets_bringIn (hlacks : old.history.Lacks part) {s : Site} {w v : Location}
    (hs : IsBeside part root s w v) {sub : Submodule} (hsub : IsFine part sub)
    (hcommit : sub.commit ≠ none) (commit : CommitId) :
    Meets (Kept part root old) (bringIn s sub commit) fun _ => True := by
  obtain ⟨hpath, hpart⟩ := hsub.path hcommit
  have hw : repositoryDirName ∉ w ++ Snapshot.locationOf sub.path := fun hmem =>
    (List.mem_append.mp hmem).elim hs.noRepository hpath
  have hw' : part ∉ w ++ Snapshot.locationOf sub.path := fun hmem =>
    (List.mem_append.mp hmem).elim hs.noPart hpart
  have hsite := site_eq hs sub
  have hprepare (r : Repository) :
      Meets (Kept part root old) (prepare (site s sub) r) fun _ => True := by
    rw [hsite]
    exact meets_prepare hw hw' hs.names (fun n hn => ⟨Snapshot.slash_not_mem hn, hsub.name n hn⟩) r
  have hcheck : Meets (Kept part root old)
      (Depot.changeCopy (site s sub) (Pull.checkOutHead old.history)) fun _ => True := fun d hd =>
    ⟨hd.changeCopy hlacks hw hw' (by rw [hsite]) (by rw [hsite]), fun _ _ => trivial⟩
  exact meets_bringIn_of (fun _ hd => hd.history) hprepare hcheck commit

/-- A submodule that is not known where to be fetched from is not brought in. -/
theorem meets_bringIn_of_url {I : Depot → Prop} {sub : Submodule} (hurl : sub.url = none) (s : Site)
    (commit : CommitId) : Meets I (bringIn s sub commit) fun _ => True := by
  unfold bringIn
  refine Meets.bind (Q := fun _ => True) (meets_inspect fun _ _ _ _ => trivial) fun r _ => ?_
  rw [hurl]
  exact meets_throw _

/-- What is opened at a path is a repository that is there. -/
theorem meets_open {I : Depot → Prop} {Q : Site → Prop} {files : Location}
    (hopen : ∀ d, I d → ∀ inner, d.siteAt? files = some inner → Q inner) :
    Meets I (do
      match (← get).siteAt? files with
      | some inner => return inner
      | none => throw .notRepository) Q := by
  refine meets_get fun d hd => ?_
  split
  · exact meets_pure (hopen d hd _ ‹_›)
  · exact meets_throw _

/-- Entering a submodule is to bring it in if it is tracked, and to open what is at its path. -/
theorem meets_enter_of {I : Depot → Prop} {Q : Site → Prop} {s : Site} {sub : Submodule}
    (hbring : ∀ commit, sub.commit = some commit → Meets I (bringIn s sub commit) fun _ => True)
    (hopen : ∀ d, I d → ∀ inner,
      d.siteAt? (s.files ++ Snapshot.locationOf sub.path) = some inner → Q inner) :
    Meets I (enter s sub) Q := by
  unfold enter
  dsimp only
  split
  · rename_i commit hcommit
    exact (hbring commit hcommit).bind fun _ _ => meets_open hopen
  · exact meets_open hopen

theorem meets_enter (hlacks : old.history.Lacks part)
    (hpart : part ∈ headFile ++ commitsDir ++ refsDir) {s : Site} (hs : IsIn part root s)
    {sub : Submodule} (hsub : IsFine part sub ∧ (IsWithin root s → sub.url = none)) :
    Meets (Kept part root old) (enter s sub) (IsIn part root) := by
  obtain ⟨x, hx⟩ : ∃ x, s.files = root ++ x := by
    rcases hs with ⟨w, v, hs⟩ | ⟨v, hv⟩
    · exact ⟨w, hs.files⟩
    · exact ⟨_, hv⟩
  have hopen {d : Depot} (hd : Kept part root old d) {inner : Site}
      (hinner : d.siteAt? (s.files ++ Snapshot.locationOf sub.path) = some inner) :
      IsIn part root inner := by
    rw [hx, List.append_assoc] at hinner
    exact hd.isIn_of_siteAt? hpart hinner
  refine meets_enter_of (fun commit hcommit => ?_) fun d hd inner => hopen hd
  rcases hs with ⟨w, v, hs⟩ | hs
  · exact meets_bringIn hlacks hs hsub.1 (by simp [hcommit]) commit
  · exact meets_bringIn_of_url (hsub.2 hs) s commit

/-- Bringing in the submodules of a checkout, and those inside of them. -/
theorem kept_bringInAll (hlacks : old.history.Lacks part)
    (hpart : part ∈ headFile ++ commitsDir ++ refsDir) (hd : Kept part root old d) {s : Site}
    (hs : IsIn part root s) : Kept part root old ((bringInAll s).perform d).2 :=
  (meets_visit (fun s _ => meets_listAt hlacks s)
    (fun _ hs _ hsub => meets_enter hlacks hpart hs hsub) hs d hd).1

end Submodule

end Scaffold
