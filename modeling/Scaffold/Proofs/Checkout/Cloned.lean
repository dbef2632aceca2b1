import Scaffold.Proofs.Checkout.Descending
import Scaffold.Proofs.Checkout.Incremental

/-!
# The submodules of a clone

Right after a clone, the site of the checkout is fresh at the commit of the remote (`fresh_clone`).
From there on submodules are brought in, so a clone comes along some of the paths of submodules down
to `submoduleDepth`, and stops there if something fails (`exists_descended_clone`). A fetch that
clones reports the checkout in any case (`CheckoutCache.fetch_nestings`).

Listing the submodules of a repository may fail, too : settings inside of one submodule that cannot
be read end it all, even if each submodule that is entered can be entered (`unread_settings_end`).
-/

namespace Scaffold

open Scaffold.Path
open Disk Node Repository Submodule

namespace Repository

variable {h : History} {dir : Node} {r : Repository} {id : CommitId}

/-- The head of a repository is at a commit that is known. -/
theorem lt_length_of_headCommit? (hread : ofDir h dir = .ok r) (hid : r.headCommit? = some id) :
    id < h.commits.length := by
  obtain ⟨head, hhead, hcommit⟩ := Option.bind_eq_some_iff.mp hid
  cases head with
  | branch name => exact lt_length_of_get?_branches hread hcommit
  | detached id' =>
    obtain rfl : id' = id := Option.some.inj hcommit
    obtain ⟨-, settings, -, rfl⟩ := ofDir_eq_ok.mp hread
    obtain ⟨text, -, htext⟩ := Option.bind_eq_some_iff.mp hhead
    unfold headOfText? at htext
    dsimp only at htext
    split at htext
    · obtain ⟨name, -, hname⟩ := Option.map_eq_some_iff.mp htext
      cases hname
    · obtain ⟨id, hknown, hdetached⟩ := Option.map_eq_some_iff.mp htext
      cases hdetached
      exact (commitOfText?_eq_some.mp hknown).1

/-- A clone has a head, and tracks the commit that the remote is at. -/
theorem exists_ofClone (url : String) (remote : Repository) :
    (∃ head, (ofClone url remote).head = some head) ∧
      (ofClone url remote).tracked = remote.headCommit? := by
  unfold ofClone
  dsimp only
  split
  · rename_i hnone
    exact ⟨⟨_, rfl⟩, hnone.symm⟩
  · rename_i id hid
    split <;> exact ⟨⟨_, rfl⟩, hid.symm⟩

end Repository

/-- A snapshot is modular if all of its submodules are tracked, and their names are proper and
apart. -/
theorem Snapshot.modular_of_tracked {s : Snapshot} {subs : List Submodule}
    (hlink : ∀ target, (settingsName, .link target) ∉ s) (hsubs : s.submodules? = some subs)
    (hnames : ∀ sub ∈ subs, sub.commit ≠ none ∧
      ∀ n ∈ locationOf sub.name, IsName n ∧ '\n' ∉ n.toList)
    (hapart : subs.Pairwise fun a b => Apart (locationOf a.name) (locationOf b.name)) :
    s.Modular := by
  refine ⟨hlink, ?_, ?_, ?_⟩
  all_goals
    intro subs' h
    obtain rfl := Option.some.inj (hsubs.symm.trans h)
  · exact fun sub hsub _ => (hnames sub hsub).2
  · exact hapart.imp fun hab _ _ => hab
  · exact fun sub hsub hnone => ((hnames sub hsub).1 hnone).elim

namespace Submodule

variable {part : String} {d d' : Depot} {p : Path} {l : Location} {url : String}
  {remote : Repository}

/-- A depot in which a clone of a remote was stored. -/
def withClone (url : String) (remote : Repository) (l : Location) (d : Depot) : Depot :=
  d.stored l (Snapshot.checkOut [] ((ofClone url remote).snapshot d.history)
    (.dir [(repositoryDirName, create (ofClone url remote))]))

/-- The site of a clone is fresh at the commit of the remote. -/
theorem fresh_clone (hreg : d.history.Regular) (hlook : d.look url = .ok remote)
    (hp : d.disk.resolve true p = .ok ⟨l, none⟩) :
    Fresh part l (withClone url remote l d) ⟨l ++ [repositoryDirName], l⟩ remote.headCommit? := by
  obtain ⟨dir, hdir⟩ := Depot.exists_of_look hlook
  obtain ⟨⟨head, hhead⟩, htracked⟩ := exists_ofClone url remote
  have hsnapshot : (ofClone url remote).snapshot d.history =
      d.history.snapshotOf remote.headCommit? := by
    rw [Repository.snapshot, htracked]
    rfl
  have hfiles : (withClone url remote l d).disk.top.at? l = some _ := at?_stored_of_resolve hp _
  rw [hsnapshot] at hfiles
  obtain ⟨r, hread, -, -, hcommit⟩ := exists_ofDir_create (h := d.history) hhead fun id hid =>
    lt_length_of_headCommit? hdir (htracked.symm.trans hid)
  refine ⟨⟨[], [], isBeside_top part l⟩, ⟨create (ofClone url remote), r, ?_, hread,
    hcommit.trans htracked⟩, create (ofClone url remote), ?_, hfiles⟩
  · rw [at?_append, hfiles, Option.bind_some, Snapshot.at?_checkOut_repository
      Snapshot.regular_nil (hreg.snapshotOf _)]
    rfl
  · rw [beacon, if_pos rfl]
    have htop := layout_create_nil (ofClone url remote)
    rw [layout, at?_nil] at htop
    exact Option.some.inj htop

/-- A path reaches the place of a clone when nothing else was touched. -/
theorem reaches_of_spares (hp : d.disk.resolve true p = .ok ⟨l, none⟩) {n : Node}
    (hspares : Spares (· = ⟨l ++ [repositoryDirName], l⟩) (d.stored l n) d') :
    d'.disk.Reaches p l := by
  obtain ⟨above, name, rfl, -, hdir, -⟩ := exists_of_resolve_eq_none hp
  refine (reaches_of_resolve hp (by simp)).congr hspares.here fun x hx => ?_
  have hstored : (d.stored (above ++ [name]) n).disk.top.layout x = d.disk.top.layout x :=
    layout_put_of_outside _ _ hx
  refine (hspares.layout_eq ?_).trans hstored
  rintro u rfl y hy
  rcases apart_or_prefix (above ++ [name]) x with hsep | hpre | hpre
  · refine Or.inl ?_
    rcases List.mem_cons.mp hy with rfl | hy
    · exact hsep
    · exact List.mem_singleton.mp hy ▸ hsep.append_left _
  · exact (hx hpre).elim
  · have habove : x <+: above := (List.prefix_concat_iff.mp hpre).resolve_left
      fun heq => hx (heq ▸ List.prefix_rfl)
    refine Or.inr ⟨?_, hstored.trans (layout_above hdir habove)⟩
    rcases List.mem_cons.mp hy with rfl | hy
    · exact hpre
    · exact List.mem_singleton.mp hy ▸ hpre.trans (List.prefix_append _ _)

end Submodule

/-- Whether a submodule is brought in at a location : a commit is tracked there, and the files show
it. -/
def Depot.HasIn (d : Depot) (l : Location) (id : CommitId) : Prop :=
  d.Tracks l id ∧ ∃ files, d.disk.top.at? l = some files ∧ (d.history.snapshot id).Shows files

/-- At the end of a path that was come along a submodule is brought in. -/
theorem Submodule.Along.exists_hasIn {part : String} {root : Location} {U : Site → Prop} {s : Site}
    {commit : Option CommitId} {d d' : Depot} {reached : List (List Submodule)}
    (h : Along part root U s commit d d' reached) {path : List Submodule} (hpath : path ∈ reached)
    (hne : path ≠ []) :
    ∃ id, endCommit commit path = some id ∧ d'.HasIn (endSite s path).files id := by
  obtain ⟨id, hid⟩ := Option.ne_none_iff_exists'.mp (h.known path hpath hne)
  have hstands := h.stands path hpath
  rw [hid] at hstands
  exact ⟨id, hid, hstands.depotTracks, hstands.shows⟩

/-- A visit has come to the site that it starts from. -/
theorem Submodule.Descended.exists_cons {h : History} {s : Site} {commit : Option CommitId}
    {A : Depot → List (List Submodule) → Prop} {paths reached rest : List (List Submodule)}
    {out : Except Repository.Fault Unit × Depot} (hout : Descended h s commit A reached rest out)
    (hpaths : [] :: paths = reached ++ rest) :
    ∃ done, reached = [] :: done ∧ paths = done ++ rest := by
  cases reached with
  | cons first done =>
    obtain ⟨rfl, hdone⟩ := List.cons.inj hpaths
    exact ⟨done, rfl, hdone⟩
  | nil =>
    -- It is not entered from elsewhere, and its settings are read when it was come to.
    rw [List.nil_append] at hpaths
    cases hout.ends with
    | whole hrest => cases hpaths.trans hrest
    | entering path _ hrest _ =>
      have hnil := (List.cons.inj (hpaths.trans hrest)).1
      exact (List.append_ne_nil_of_right_ne_nil path (List.cons_ne_nil _ []) hnil.symm).elim
    | listing before path hreached _ =>
      exact (List.append_ne_nil_of_right_ne_nil before (List.cons_ne_nil _ []) hreached.symm).elim

namespace CheckoutCache

variable {c : CheckoutCache} {d : Depot} {url : String} {p : Path} {refuses : Pull.Step → Bool}

/-- A clone that does not fail comes along some paths of submodules, and it tells if it was not along
all of them. -/
theorem exists_descended_clone (hcloned : .cloneFailed ∉ (clone url p d).1)
    (htidy : d.history.Tidy) (hreg : d.history.Regular) (hmod : d.history.Modular) :
    ∃ part remote l result reached rest, d.look url = .ok remote ∧
      d.disk.resolve true p = .ok ⟨l, none⟩ ∧
      (FetchNote.submodulesFailed ∈ (clone url p d).1 ↔ result ≠ .ok ()) ∧
      [] :: d.history.nestings submoduleDepth remote.headCommit? = reached ++ rest ∧
      Descended d.history ⟨l ++ [repositoryDirName], l⟩ remote.headCommit?
        (Along part l (· = ⟨l ++ [repositoryDirName], l⟩) ⟨l ++ [repositoryDirName], l⟩
          remote.headCommit? (withClone url remote l d)) reached rest (result, (clone url p d).2) := by
  obtain ⟨part, hpart, hlacks⟩ := htidy
  obtain ⟨remote, l, hlook, hp⟩ := exists_of_clone hcloned
  obtain ⟨reached, rest, hpaths, hout⟩ := exists_descended hreg hmod hlacks hpart submoduleDepth
    (d := withClone url remote l d) rfl (fresh_clone hreg hlook hp)
  have hclone : (Depot.clone url p).perform d =
      (.ok ⟨l ++ [repositoryDirName], l⟩, withClone url remote l d) := by
    rw [perform_clone, hlook]
    dsimp only
    rw [hp]
    rfl
  generalize hrun : (Nested.visit listAt enter submoduleDepth
    ⟨l ++ [repositoryDirName], l⟩).perform (withClone url remote l d) = out at hout
  obtain ⟨result, d'⟩ := out
  have hnotes : (clone url p d).2 = d' ∧
      (FetchNote.submodulesFailed ∈ (clone url p d).1 ↔ result ≠ .ok ()) := by
    unfold clone
    rw [hclone]
    dsimp only
    rw [bringInAll, hrun]
    cases result <;> simp
  obtain ⟨rfl, hfailed⟩ := hnotes
  exact ⟨part, remote, l, result, reached, rest, hlook, hp, hfailed, hpaths, hout⟩

/-- A fetch that tells of cloning has cloned, once there was a directory for it. -/
theorem fetch_eq_of_cloning (hcloning : .cloning ∈ (c.fetch url d refuses).1.notes) :
    c.fetch url d refuses =
      ({ result := .ok { path := c.path url, fetched := true }
         notes := (clone url (c.path url) (c.ready d)).1 },
        (clone url (c.path url) (c.ready d)).2) := by
  cases hnew : d.disk.exists? (c.path url) with
  | true =>
    -- What is told of a pull is never that something is cloned.
    have hpulled (outcome : Except Repository.Fault Pull.Outcome) :
        (pulled outcome).1 ≠ .cloning := by
      rcases outcome with e | (_ | _ | _) <;> exact nofun
    unfold fetch refresh at hcloning
    dsimp only at hcloning
    rw [if_pos hnew] at hcloning
    split at hcloning
    · cases hcloning
    · exact (hpulled _ (List.mem_singleton.mp hcloning).symm).elim
  | false =>
    suffices hok : ∃ checkout, (c.fetch url d refuses).1.result = .ok checkout from
      hok.elim fun _ => fetch_eq_of_missing hnew
    unfold fetch at hcloning ⊢
    dsimp only at hcloning ⊢
    rw [hnew, if_neg Bool.false_ne_true] at hcloning ⊢
    split at hcloning
    · cases hcloning
    · exact ⟨_, rfl⟩

/-- A fetch that clones reports the checkout, whatever comes of the submodules. Of the submodules on
paths that go down to some depth, each before those inside of it, the first ones are brought in, each
at the commit that is tracked, and in the others nothing is. These are none, unless the next one
could not be entered when all before it were brought in, or the settings at the end of the last path,
or those of the checkout itself, could not be read. -/
theorem fetch_nestings (hcloning : .cloning ∈ (c.fetch url d refuses).1.notes)
    (hcloned : .cloneFailed ∉ (c.fetch url d refuses).1.notes) (htidy : d.history.Tidy)
    (hreg : d.history.Regular) (hmod : d.history.Modular) :
    (c.fetch url d refuses).1.result = .ok { path := c.path url, fetched := true } ∧
    ∃ remote s, (c.ready d).look url = .ok remote ∧
      (c.fetch url d refuses).2.siteOf (c.path url) = .ok s ∧
      ∃ done rest, d.history.nestings submoduleDepth remote.headCommit? = done ++ rest ∧
        (∀ path, path ∈ done ++ rest ↔ d.history.Nests remote.headCommit? path ∧ path ≠ [] ∧
          path.length ≤ submoduleDepth) ∧
        (∀ path ∈ done, ∃ id, endCommit remote.headCommit? path = some id ∧
          (c.fetch url d refuses).2.HasIn (endSite s path).files id) ∧
        (∀ path ∈ rest, ∀ id, ¬(c.fetch url d refuses).2.Tracks (endSite s path).files id) ∧
        (.submodulesFailed ∉ (c.fetch url d refuses).1.notes → rest = []) ∧
        (.submodulesFailed ∈ (c.fetch url d refuses).1.notes →
          (∃ path sub more d₁ e, rest = (path ++ [sub]) :: more ∧
            (∀ path ∈ done, ∃ id, endCommit remote.headCommit? path = some id ∧
              d₁.HasIn (endSite s path).files id) ∧
            (enter (endSite s path) sub).perform d₁ = (.error e, (c.fetch url d refuses).2)) ∨
          ∃ before path, [] :: done = before ++ [path] ∧
            d.history.submodules? (endCommit remote.headCommit? path) = none) := by
  have hfetch := fetch_eq_of_cloning hcloning
  rw [hfetch] at hcloned ⊢
  dsimp only at hcloned ⊢
  refine ⟨rfl, ?_⟩
  obtain ⟨part, remote, l, result, reached, rest, hlook, hp, hfailed, hpaths, hout⟩ :=
    exists_descended_clone (d := c.ready d) hcloned htidy hreg hmod
  have hreaches := reaches_of_spares hp hout.along.spares
  generalize (clone url (c.path url) (c.ready d)).2 = d' at hout hreaches ⊢
  obtain ⟨done, rfl, hnestings⟩ := hout.exists_cons hpaths
  have hmem (path : List Submodule) : path ∈ done ++ rest ↔
      d.history.Nests remote.headCommit? path ∧ path ≠ [] ∧ path.length ≤ submoduleDepth := by
    rw [← hnestings]
    exact History.mem_nestings
  have hdone {x : Depot} (hx : Along part l (· = ⟨l ++ [repositoryDirName], l⟩)
      ⟨l ++ [repositoryDirName], l⟩ remote.headCommit? (withClone url remote l (c.ready d)) x
      ([] :: done)) (path : List Submodule) (hpath : path ∈ done) :=
    hx.exists_hasIn (List.mem_cons_of_mem _ hpath)
      ((hmem path).mp (List.mem_append_left rest hpath)).2.1
  have htop := hout.along.stands [] List.mem_cons_self
  have hsite : d'.siteOf (c.path url) = .ok ⟨l ++ [repositoryDirName], l⟩ := by
    obtain ⟨files, hfiles, hshows⟩ := htop.shows
    obtain ⟨entries, hentries⟩ := layout_eq_dir.mp hshows.top
    obtain rfl : files = .dir entries := Option.some.inj ((at?_nil files).symm.trans hentries)
    have hfound : d'.siteAt? l = some ⟨l ++ [repositoryDirName], l⟩ := htop.siteAt?
    rw [Depot.siteOf, hreaches.stat hfiles]
    dsimp only
    rw [hfound]
    rfl
  refine ⟨remote, _, hlook, hsite, done, rest, hnestings, hmem, hdone hout.along, hout.left,
    fun hok => ?_, fun hno => ?_⟩
  · cases hout.ends with
    | whole hrest => exact hrest
    | entering | listing => exact absurd (hfailed.mpr fun h => by cases h) hok
  · cases hout.ends with
    | whole hrest => exact absurd rfl (hfailed.mp hno)
    | entering path hx hrest hrun => exact Or.inl ⟨path, _, _, _, _, hrest, hdone hx, hrun⟩
    | listing before path hreached hsubs => exact Or.inr ⟨before, path, hreached, hsubs⟩

/-! ## A repository inside of itself -/

/-- Commits of a repository that has itself as a submodule, at the commit before. -/
def selfHistory : History where
  commits :=
    [{ snapshot := [("f.txt", .file "1".toUTF8 false)], parents := [], message := "one" },
      { snapshot := [modules, ("sub", .submodule 0)], parents := [0], message := "two" },
      { snapshot := [modules, ("sub", .submodule 1)], parents := [1], message := "three" }]
where
  /-- The file that says where the submodule is fetched from. -/
  modules : String × Tracked :=
    (".gitmodules", .file "[submodule \"sub\"]\n\tpath = sub\n\turl = ../origin\n".toUTF8 false)

/-- The submodule of the samples, at a commit. -/
def sampleSub (id : CommitId) : Submodule :=
  { name := "sub", path := "sub", url := some "../origin", commit := some id }

theorem submodules?_selfHistory : selfHistory.submodules? (some 0) = some [] ∧
    selfHistory.submodules? (some 1) = some [sampleSub 0] ∧
    selfHistory.submodules? (some 2) = some [sampleSub 1] := by
  decide +kernel

theorem regular_selfHistory : selfHistory.Regular := by
  intro id
  match id with
  | 0 | 1 | 2 => exact ⟨by decide +kernel, by decide +kernel⟩
  | _ + 3 => exact Snapshot.regular_nil

theorem tidy_selfHistory : selfHistory.Tidy := by
  have hlacks (id : CommitId) (hid : id < 3) : ∀ e ∈ selfHistory.snapshot id,
      (∀ n ∈ Snapshot.locationOf e.1, IsName n) ∧ repositoryDirName ∉ Snapshot.locationOf e.1 ∧
        "HEAD" ∉ Snapshot.locationOf e.1 := by
    match id with
    | 0 | 1 | 2 => decide +kernel
  refine ⟨"HEAD", by decide, fun id e he => ?_⟩
  match id with
  | 0 | 1 | 2 =>
    obtain ⟨hnames, hno, hpart⟩ := hlacks _ (by decide) e he
    exact ⟨hnames, hno, hpart⟩
  | _ + 3 => cases he

theorem modular_selfHistory : selfHistory.Modular := by
  have hnames (id : CommitId) : ∀ sub ∈ [sampleSub id], sub.commit ≠ none ∧
      ∀ n ∈ Snapshot.locationOf sub.name, IsName n ∧ '\n' ∉ n.toList := by
    have hsub : ∀ n ∈ Snapshot.locationOf "sub", IsName n ∧ '\n' ∉ n.toList := by decide +kernel
    exact List.forall_mem_singleton.mpr ⟨Option.some_ne_none id, hsub⟩
  obtain ⟨hzero, hone, htwo⟩ := submodules?_selfHistory
  have hlink (target : String) : (settingsName, .link target) ∉ selfHistory.snapshot 0 ∧
      (settingsName, .link target) ∉ selfHistory.snapshot 1 ∧
      (settingsName, .link target) ∉ selfHistory.snapshot 2 := by
    simp [History.snapshot, History.get?, selfHistory, selfHistory.modules]
  intro id
  rcases id with _ | _ | _ | id
  · exact Snapshot.modular_of_tracked (fun target => (hlink target).1) hzero (by simp) .nil
  · exact Snapshot.modular_of_tracked (fun target => (hlink target).2.1) hone (hnames 0)
      (List.pairwise_singleton _ _)
  · exact Snapshot.modular_of_tracked (fun target => (hlink target).2.2) htwo (hnames 1)
      (List.pairwise_singleton _ _)
  · exact Snapshot.modular_nil

/-- The repository is brought in inside of itself, down to its first commit. -/
theorem fetch_nestings_selfHistory :
    let fetched := sampleCache.fetch "/srv/origin" (remoteDepot selfHistory 2)
    fetched.1.result = .ok { path := sampleCache.path "/srv/origin", fetched := true } ∧
      ∃ s, fetched.2.siteOf (sampleCache.path "/srv/origin") = .ok s ∧
        fetched.2.HasIn (s.files ++ ["sub"]) 1 ∧ fetched.2.HasIn (s.files ++ ["sub", "sub"]) 0 := by
  dsimp only
  have hnotes : (sampleCache.fetch "/srv/origin" (remoteDepot selfHistory 2)).1.notes =
      [.cloning] := by
    decide +kernel
  have hlook : ((sampleCache.ready (remoteDepot selfHistory 2)).look "/srv/origin").toOption.map
      (·.headCommit?) = some (some 2) := by
    decide +kernel
  have hpaths : selfHistory.nestings submoduleDepth (some 2) =
      [[sampleSub 1], [sampleSub 1, sampleSub 0]] := by
    decide +kernel
  have hcloning : .cloning ∈
      (sampleCache.fetch "/srv/origin" (remoteDepot selfHistory 2)).1.notes := by
    rw [hnotes]
    exact List.mem_singleton_self _
  have hno {note : FetchNote} (hne : note ≠ .cloning) :
      note ∉ (sampleCache.fetch "/srv/origin" (remoteDepot selfHistory 2)).1.notes := by
    rw [hnotes]
    exact fun h => hne (List.mem_singleton.mp h)
  obtain ⟨hresult, remote, s, hremote, hsite, done, rest, hnestings, -, hdone, -, hrest, -⟩ :=
    fetch_nestings hcloning (hno nofun) tidy_selfHistory regular_selfHistory modular_selfHistory
  rw [hremote] at hlook
  have hcommit : remote.headCommit? = some 2 := Option.some.inj hlook
  obtain rfl := hrest (hno nofun)
  rw [List.append_nil, hcommit] at hnestings
  obtain rfl := hnestings.symm.trans hpaths
  have hlocation : Snapshot.locationOf "sub" = ["sub"] := by decide +kernel
  have hpath (id : CommitId) : (sampleSub id).path = "sub" := rfl
  refine ⟨hresult, s, hsite, ?_, ?_⟩
  · obtain ⟨id, hid, hin⟩ := hdone [sampleSub 1] (by simp)
    obtain rfl := Option.some.inj hid
    simpa [files_endSite, hpath, hlocation] using hin
  · obtain ⟨id, hid, hin⟩ := hdone [sampleSub 1, sampleSub 0] (by simp)
    obtain rfl := Option.some.inj hid
    simpa [files_endSite, hpath, hlocation] using hin

/-! ## Settings that cannot be read -/

/-- Commits of two repositories, the first one with settings that cannot be read, and of one that has
both as submodules. -/
def unreadHistory : History where
  commits :=
    [{ snapshot := [(".gitmodules", .file "[submodule".toUTF8 false),
          ("f.txt", .file "a".toUTF8 false)], parents := [], message := "a" },
      { snapshot := [("f.txt", .file "b".toUTF8 false)], parents := [], message := "b" },
      { snapshot := [(".gitmodules", .file (written "a" ++ written "b").toUTF8 false),
          ("a", .submodule 0), ("b", .submodule 1)], parents := [], message := "both" }]
where
  /-- The lines that say where a submodule is fetched from. -/
  written (name : String) : String :=
    "[submodule \"" ++ name ++ "\"]\n\tpath = " ++ name ++ "\n\turl = ../" ++ name ++ "\n"

/-- A depot in which the remote of another repository is, too. -/
def withRemote (name : String) (tip : CommitId) (d : Depot) : Depot :=
  let top := Node.force (Repository.create (mainAt tip none)) ["srv", name, ".git"] d.disk.top
  { d with disk := { d.disk with top } }

/-- A depot with the remotes of all three. -/
def unreadDepot : Depot := withRemote "b" 1 (withRemote "a" 0 (remoteDepot unreadHistory 2))

/-- A submodule of the third one. -/
def unreadSub (name : String) (id : CommitId) : Submodule :=
  { name, path := name, url := some ("../" ++ name), commit := some id }

/-- Both submodules can be entered, and the first one is, but the second one is not as the settings
of the first one cannot be read. -/
theorem unread_settings_end :
    let top : Site := ⟨samplePlace ++ [repositoryDirName], samplePlace⟩
    let cloned := (Depot.clone "/srv/origin" (sampleCache.path "/srv/origin")).perform
      (sampleCache.ready unreadDepot)
    let listed := (listAt top).perform cloned.2
    let entered := (enter top (unreadSub "a" 0)).perform cloned.2
    let inner := (listAt (site top (unreadSub "a" 0))).perform entered.2
    let fetched := sampleCache.fetch "/srv/origin" unreadDepot
    cloned.1.toOption = some top ∧
      listed.1.toOption = some [unreadSub "a" 0, unreadSub "b" 1] ∧
      entered.1.toOption = some (site top (unreadSub "a" 0)) ∧ inner.1.toOption = none ∧
      ((enter top (unreadSub "b" 1)).perform fetched.2).1.toOption =
        some (site top (unreadSub "b" 1)) ∧
      unreadHistory.nestings submoduleDepth (some 2) = [[unreadSub "a" 0], [unreadSub "b" 1]] ∧
      fetched.1.notes = [.cloning, .submodulesFailed] ∧
      fetched.2.siteAt? (samplePlace ++ ["a"]) = some (site top (unreadSub "a" 0)) ∧
      fetched.2.siteAt? (samplePlace ++ ["b"]) = none := by
  decide +kernel

end CheckoutCache

end Scaffold
