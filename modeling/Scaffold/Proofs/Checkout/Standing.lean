import Scaffold.Proofs.Repository.Showing
import Scaffold.Proofs.Repository.Checkout
import Scaffold.Proofs.Repository.Saving

/-!
# Fetching a checkout that is there

`Depot.CheckedOut` says that a path leads to a working copy whose head is on a branch at a commit.
A fetch of it pulls, and what it leaves is the working copy that the pull comes to, as far as it is
read back : the same working tree, and a repository with the same head and the same commit tracked
(`CheckoutCache.exists_fetch`).

What happens elsewhere leaves the checkout alone (`Depot.Elsewhere`).
-/

namespace Scaffold

open Scaffold.Path
open Disk Node Repository

/-! ## Working trees -/

/-- A layout without the directory of the repository. -/
def Disk.Layout.work (t : Layout) : Layout := fun l =>
  if l.head? = some repositoryDirName then none else t l

/-- What is in the files of a working copy, without the directory of the repository. -/
def WorkingCopy.tree (w : WorkingCopy) : Layout := w.files.layout.work

theorem Disk.Layout.work_of_ne {t : Layout} {l : Location} (h : ∀ r, l ≠ repositoryDirName :: r) :
    t.work l = t l := by
  refine if_neg fun hhead => ?_
  cases l with
  | nil => cases hhead
  | cons first l => exact h l (Option.some.inj hhead ▸ rfl)

/-- Layouts that differ in the directory of the repository alone have the same working tree. -/
theorem Disk.Layout.work_congr {t t' : Layout}
    (h : ∀ l, (∀ r, l ≠ repositoryDirName :: r) → t' l = t l) : t'.work = t.work := by
  funext l
  unfold Disk.Layout.work
  split
  · rfl
  · rename_i hhead
    exact h l fun r hl => hhead (hl ▸ rfl)

theorem Snapshot.locationOf_ne_repository {path : String}
    (h : repositoryDirName ∉ locationOf path) (r s : Location) :
    locationOf path ++ s ≠ repositoryDirName :: r := by
  obtain ⟨first, rest, hl⟩ := List.exists_cons_of_ne_nil (locationOf_ne_nil path)
  rw [hl] at h ⊢
  intro heq
  exact h ((List.cons.inj heq).1 ▸ List.mem_cons_self)

/-- A snapshot takes the place of another one in the working tree as it does in all files. -/
theorem Snapshot.Replaces.work {old new : Snapshot} {t t' : Layout} (hold : old.Regular)
    (hnew : new.Regular) (h : Replaces old new t t') : Replaces old new t.work t'.work where
  tracked e he := by
    rw [Layout.work_of_ne fun r heq => locationOf_ne_repository (hnew.noRepository e he) r []
      (by rwa [List.append_nil])]
    exact h.tracked e he
  gone e he hapart i hi hdir r := by
    have hne := locationOf_ne_repository (hold.noRepository e he)
    rw [Layout.work_of_ne fun r' => hne r' r]
    rw [Layout.work_of_ne fun r' heq => hne r' [] (by rwa [List.append_nil])] at hi
    exact h.gone e he hapart i hi hdir r
  rest x hx := by
    unfold Layout.work
    split
    · rfl
    · exact h.rest x hx

/-- Whether all that is known is regular. -/
def History.Regular (h : History) : Prop := ∀ id, (h.snapshot id).Regular

theorem History.Regular.snapshot {h : History} (hh : h.Regular) (r : Repository) :
    (r.snapshot h).Regular := by
  unfold Repository.snapshot
  cases r.tracked with
  | none => exact Snapshot.regular_nil
  | some id => exact hh id

namespace Depot

/-! ## Finding the repository of a checkout -/

theorem isDir_of_isRepository {dir : Node} (h : isRepository dir = true) : dir.isDir = true := by
  cases dir with
  | dir entries => rfl
  | file bytes executable | link target => cases h

variable {d : Depot} {l : Location} {files dir : Node}

/-- The directory of the repository is found beside the files. -/
theorem directoryOf?_eq (hl : d.disk.top.at? l = some files)
    (hdir : files.at? [repositoryDirName] = some dir) (hrepo : isRepository dir = true) :
    d.directoryOf? l = some (l ++ [repositoryDirName]) := by
  obtain ⟨entries, rfl⟩ := isDir_eq_true.mp (isDir_of_isRepository hrepo)
  have hat : d.disk.top.at? (l ++ [repositoryDirName]) = some (.dir entries) := by
    rw [at?_append, hl]
    exact hdir
  have htop : d.disk.top.layout l = some .dir :=
    layout_of_append (r := [repositoryDirName]) (List.cons_ne_nil _ []) (by
      rw [layout, hat]
      exact Option.some_ne_none _)
  have hsteps : stepsOf repositoryDirName = (false, [.name repositoryDirName]) := by
    decide +kernel
  have hstat : ({ d.disk with here := l } : Disk).stat ⟨repositoryDirName⟩ =
      .ok (l ++ [repositoryDirName], .dir entries) := by
    rw [stat_eq_ok, resolve, if_neg (by decide), hsteps]
    dsimp only
    rw [if_neg Bool.false_ne_true, walk_name, htop, layout_eq_dir.mpr ⟨entries, hat⟩]
    dsimp only
    rw [walk, walkSteps, hat]
  unfold directoryOf? statFrom
  rw [hstat]
  rfl

/-- The files of a checkout and its repository make a site. -/
theorem siteAt?_eq (hl : d.disk.top.at? l = some files)
    (hdir : files.at? [repositoryDirName] = some dir) (hrepo : isRepository dir = true) :
    d.siteAt? l = some { directory := l ++ [repositoryDirName], files := l } := by
  have hhas : d.hasRepository (l ++ [repositoryDirName]) = true := by
    rw [hasRepository, at?_append, hl, Option.bind_some, hdir]
    exact hrepo
  rw [siteAt?, directoryOf?_eq hl hdir hrepo, Option.filter, if_pos hhas]

theorem isRepository_of_ofDir {h : History} {r : Repository} (hr : ofDir h dir = .ok r) :
    isRepository dir = true := (ofDir_eq_ok.mp hr).1

/-! ## Checkouts -/

/-- Whether a path leads to a working copy with its repository in it. -/
structure Holds (d : Depot) (p : Path) (w : WorkingCopy) : Prop where
  place : ∃ l, d.disk.Reaches p l ∧ d.disk.top.at? l = some w.files
  directory : ∃ dir, w.files.at? [repositoryDirName] = some dir ∧ ProperBranches dir ∧
    ofDir d.history dir = .ok w.repository

/-- Whether a path leads to a working copy whose head has a name and is at a commit. -/
structure Opened (d : Depot) (p : Path) (w : WorkingCopy) (name : String) (id : CommitId) : Prop
    extends d.Holds p w where
  named : w.repository.namedHead? = some (name, id)

/-- Whether a path leads to a working copy whose head is on a branch at a commit. -/
structure CheckedOut (d : Depot) (p : Path) (w : WorkingCopy) (branch : String) (id : CommitId) :
    Prop extends d.Opened p w branch id where
  head : w.repository.head = some (.branch branch)

/-- Whether a step of a pull of the checkout at a path fails, as it is refused from outside or as
something is locked. -/
def hinders (d : Depot) (p : Path) (refuses : Pull.Step → Bool) (step : Pull.Step) : Bool :=
  refuses step || (d.siteOf p).toOption.any (d.isLocked · step)

/-- What a pull of the checkout at a path meets. -/
def surroundings (d : Depot) (p : Path) (refuses : Pull.Step → Bool) : Pull.Surroundings :=
  { history := d.history, look := d.look, refuses := d.hinders p refuses }

/-- Something that happens elsewhere : commits may be added that are regular, and a path still leads
to the directory that it leads to. -/
structure Elsewhere (p : Path) (d d' : Depot) : Prop where
  history : d.history.commits <+: d'.history.commits
  regular : d.history.Regular → d'.history.Regular
  place : ∀ l entries, d.disk.Reaches p l → d.disk.top.at? l = some (.dir entries) →
    d'.disk.Reaches p l ∧ d'.disk.top.at? l = some (.dir entries)

variable {d' : Depot} {p : Path} {w : WorkingCopy} {branch : String} {id : CommitId}

namespace Holds

/-- The files of a checkout are in a directory. -/
theorem exists_entries (h : d.Holds p w) : ∃ entries, w.files = .dir entries := by
  obtain ⟨dir, hdir, -, -⟩ := h.directory
  have htop : w.files.layout [] = some .dir :=
    layout_of_append (l := []) (r := [repositoryDirName]) (List.cons_ne_nil _ []) (by
      rw [List.nil_append, layout, hdir]
      exact Option.some_ne_none _)
  exact item_eq_dir.mp (Option.some.inj htop)

theorem stat (h : d.Holds p w) (hl : d.disk.Reaches p l) (hfiles : d.disk.top.at? l = some w.files) :
    d.disk.stat p = .ok (l, w.files) := by
  obtain ⟨entries, hentries⟩ := h.exists_entries
  rw [hentries] at hfiles ⊢
  exact hl.stat hfiles

/-- A path leads to one working copy. -/
theorem eq (h : d.Holds p w) {w' : WorkingCopy} (h' : d.Holds p w') : w' = w := by
  obtain ⟨l, hl, hfiles⟩ := h.place
  obtain ⟨l', hl', hfiles'⟩ := h'.place
  have hstat := (h.stat hl hfiles).symm.trans (h'.stat hl' hfiles')
  obtain ⟨-, hsame⟩ := Prod.mk.inj (Except.ok.inj hstat)
  obtain ⟨dir, hdir, -, hread⟩ := h.directory
  obtain ⟨dir', hdir', -, hread'⟩ := h'.directory
  rw [← hsame, hdir] at hdir'
  obtain rfl := Option.some.inj hdir'
  cases w
  cases w'
  rw [WorkingCopy.mk.injEq]
  exact ⟨Except.ok.inj (hread'.symm.trans hread), hsame.symm⟩

theorem siteOf (h : d.Holds p w) (hl : d.disk.Reaches p l)
    (hfiles : d.disk.top.at? l = some w.files) :
    d.siteOf p = .ok { directory := l ++ [repositoryDirName], files := l } := by
  obtain ⟨dir, hdir, -, hread⟩ := h.directory
  obtain ⟨entries, hentries⟩ := h.exists_entries
  rw [Depot.siteOf, h.stat hl hfiles, hentries]
  dsimp only
  rw [siteAt?_eq hfiles hdir (isRepository_of_ofDir hread)]
  rfl

theorem read (h : d.Holds p w) (hfiles : d.disk.top.at? l = some w.files) :
    d.read { directory := l ++ [repositoryDirName], files := l } = .ok w.repository := by
  obtain ⟨dir, hdir, -, hread⟩ := h.directory
  rw [Depot.read, at?_append, hfiles]
  dsimp only [Option.bind]
  rw [hdir]
  exact hread

theorem workingCopy (h : d.Holds p w) (hfiles : d.disk.top.at? l = some w.files) :
    d.workingCopy { directory := l ++ [repositoryDirName], files := l } = .ok w := by
  rw [Depot.workingCopy, hfiles]
  dsimp only
  rw [h.read hfiles]
  rfl

/-- What is tracked is known. -/
theorem lt_length_of_tracked (h : d.Holds p w) (hid : w.repository.tracked = some id) :
    id < d.history.commits.length := by
  obtain ⟨dir, -, -, hread⟩ := h.directory
  obtain ⟨-, settings, -, hr⟩ := ofDir_eq_ok.mp hread
  rw [hr] at hid
  exact lt_length_of_commitAt? hid

/-- What a pull meets is what it meets where the files are. -/
theorem surroundings_eq (h : d.Holds p w) (hl : d.disk.Reaches p l)
    (hfiles : d.disk.top.at? l = some w.files) (refuses : Pull.Step → Bool) :
    Pull.Surroundings.mk d.history d.look (fun step =>
      refuses step || d.isLocked ⟨l ++ [repositoryDirName], l⟩ step) = d.surroundings p refuses := by
  unfold surroundings hinders
  rw [h.siteOf hl hfiles]
  rfl

/-- A path leads to the same files when something happens elsewhere. -/
theorem place_of_elsewhere (h : d.Holds p w) (helse : Elsewhere p d d') :
    ∃ l, d'.disk.Reaches p l ∧ d'.disk.top.at? l = some w.files := by
  obtain ⟨l, hl, hfiles⟩ := h.place
  obtain ⟨entries, hentries⟩ := h.exists_entries
  rw [hentries] at hfiles ⊢
  exact ⟨l, helse.place l entries hl hfiles⟩

end Holds

theorem CheckedOut.get?_branches (h : d.CheckedOut p w branch id) :
    Entries.get? branch w.repository.branches = some id := by
  have hnamed := h.named
  rw [namedHead?_of_branch h.head] at hnamed
  simpa using hnamed

/-- A path leads to one checkout. -/
theorem CheckedOut.eq (h : d.CheckedOut p w branch id) {w' : WorkingCopy} {branch' : String}
    {id' : CommitId} (h' : d.CheckedOut p w' branch' id') :
    w' = w ∧ branch' = branch ∧ id' = id := by
  obtain rfl := h.toHolds.eq h'.toHolds
  have hnamed := Option.some.inj (h'.named.symm.trans h.named)
  exact ⟨rfl, Prod.mk.inj hnamed⟩

/-- A checkout stays what it is when something happens elsewhere, as far as its head and what is
tracked go. -/
theorem CheckedOut.of_elsewhere (h : d.CheckedOut p w branch id) (helse : Elsewhere p d d') :
    ∃ w', d'.CheckedOut p w' branch id ∧ w'.files = w.files ∧
      w'.repository.origin = w.repository.origin ∧
      ∀ id, w.repository.tracked = some id → w'.repository.tracked = some id := by
  obtain ⟨dir, hdir, hproper, hread⟩ := h.directory
  obtain ⟨r, hread', hhead, horigin, hbranch, htracked⟩ :=
    exists_ofDir_of_prefix helse.history hproper hread h.head
  have hon := hhead.trans h.head
  refine ⟨⟨r, w.files⟩, ⟨⟨⟨h.place_of_elsewhere helse, ⟨dir, hdir, hproper, hread'⟩⟩, ?_⟩, hon⟩, rfl,
    horigin, htracked⟩
  rw [namedHead?_of_branch hon, hbranch id h.get?_branches]
  rfl

end Depot

/-! ## Pulling -/

/-- Whether a working copy is what another one is read as after it was stored : the same working
tree, and a repository with the same head and the same commit tracked. -/
structure WorkingCopy.Resembles (w w' : WorkingCopy) : Prop where
  tree : w'.tree = w.tree
  head : w'.repository.head = w.repository.head
  origin : w'.repository.origin = w.repository.origin
  tracked : w'.repository.tracked = w.repository.tracked

namespace Pull.Comes

variable {s : Surroundings} {name : String} {ours : CommitId} {w w' : WorkingCopy}
  {outcome : Except Repository.Fault Outcome}

/-- A pull leaves the directory of the repository to be written afterwards. -/
theorem at?_repository (hreg : s.history.Regular) (h : Comes s name ours w outcome w') :
    w'.files.at? [repositoryDirName] = w.files.at? [repositoryDirName] := by
  cases h with
  | stopped | upToDate | diverged | halfWay => rfl
  | fastForwarded =>
    exact Snapshot.at?_checkOut_repository (hreg.snapshot w.repository) (hreg _) w.files []

/-- What a pull makes of a repository can be read back after it was saved. -/
theorem exists_restored {h : History} (hs : s.history = h) {dir : Node} (hdir : ProperBranches dir)
    (hread : ofDir h dir = .ok w.repository)
    (hnamed : w.repository.namedHead? = some (name, ours))
    (hcomes : Comes s name ours w outcome w') :
    ∃ id, Restored h name id w'.repository (save w.repository w'.repository dir) := by
  have hlike {r : Repository} (hr : w.repository.Like r) :
      Restored h name ours r (save w.repository r dir) := by
    obtain ⟨hproper, r', hread', hr'⟩ := exists_ofDir_of_like hdir hread hr
    exact ⟨hproper, hr.namedHead?_eq.trans hnamed, r', hread', hr'.head.trans hr.head.symm,
      hr'.origin.trans hr.origin.symm, hr'.tracked.trans hr.tracked.symm,
      hr'.namedHead?_eq.trans hnamed⟩
  have hmoved {r : Repository} {tip : CommitId} (hbehind : h.IsBehind ours tip)
      (hr : Moved name tip w.repository r)
      (htracked : r.tracked = w.repository.tracked ∨ r.tracked = some tip) :
      Restored h name tip r (save w.repository r dir) := by
    have hours : Entries.get? name w.repository.branches = some ours := by
      rw [namedHead?_of_branch hr.on] at hnamed
      simpa using hnamed
    obtain ⟨hproper, r', hread', hhead', horigin', hbranch', htracked'⟩ :=
      exists_ofDir_of_moved hdir hread hours hbehind.ne hbehind.lt_length hr htracked
    refine ⟨hproper, hr.namedHead?_eq, r', hread', hhead'.trans hr.head.symm,
      horigin'.trans hr.origin.symm, htracked', ?_⟩
    rw [namedHead?_of_branch (hhead'.trans hr.on), hbranch']
    rfl
  subst hs
  cases hcomes with
  | stopped _ hr | upToDate _ _ _ hr | diverged _ _ _ hr => exact ⟨ours, hlike hr⟩
  | fastForwarded _ hbehind _ hr htracked => exact ⟨_, hmoved hbehind hr (Or.inr htracked)⟩
  | halfWay _ hbehind _ _ hr htracked => exact ⟨_, hmoved hbehind hr (Or.inl htracked)⟩

/-- A pull leaves the head on what it is on. -/
theorem head_eq (h : Comes s name ours w outcome w') : w'.repository.head = w.repository.head := by
  cases h with
  | stopped _ hr | upToDate _ _ _ hr | diverged _ _ _ hr => exact hr.head
  | fastForwarded _ _ _ hr _ | halfWay _ _ _ _ hr _ => exact hr.head

end Pull.Comes

namespace Depot

variable {d : Depot} {p : Path} {w : WorkingCopy} {name : String} {ours : CommitId}

/-- Where a repository is stored among the files. -/
theorem exists_at?_put {files dir : Node} (dir' : Node)
    (hdir : files.at? [repositoryDirName] = some dir) :
    (files.put (some dir') [repositoryDirName]).at? [repositoryDirName] = some dir' ∧
      (files.put (some dir') [repositoryDirName]).layout.work = files.layout.work := by
  refine ⟨at?_put_of_at? dir' hdir, Layout.work_congr fun l hl => ?_⟩
  refine layout_put_of_outside _ files ?_
  rintro ⟨r, rfl⟩
  exact hl r rfl

/-- A pull stores the files that it comes to, with the repository saved in them. -/
theorem Holds.exists_perform_pull (h : d.Holds p w) {l : Location} (hl : d.disk.Reaches p l)
    (hfiles : d.disk.top.at? l = some w.files) {refuses : Pull.Step → Bool}
    {outcome : Except Repository.Fault Pull.Outcome} {w' : WorkingCopy}
    (hrun : (Pull.run (d.surroundings p refuses)).perform w = (outcome, w')) {dir : Node}
    (hdir : w'.files.at? [repositoryDirName] = some dir) :
    ∃ d', (Depot.pull refuses ⟨l ++ [repositoryDirName], l⟩).perform d = (outcome, d') ∧
      d'.history = d.history ∧ d'.disk.Reaches p l ∧
      d'.disk.top.at? l = some (w'.files.put
        (some (Repository.save w.repository w'.repository dir)) [repositoryDirName]) := by
  have hstored : (d.stored l w'.files).disk.top.at? l = some w'.files :=
    at?_put_of_at? w'.files hfiles
  have hrepoAt : (d.stored l w'.files).disk.top.at? (l ++ [repositoryDirName]) = some dir := by
    rw [at?_append, hstored]
    exact hdir
  refine ⟨(d.stored l w'.files).stored (l ++ [repositoryDirName])
    (Repository.save w.repository w'.repository dir), ?_, rfl, ?_, ?_⟩
  · rw [CheckoutCache.perform_pull, h.surroundings_eq hl hfiles, perform_changeCopy,
      h.workingCopy hfiles]
    dsimp only
    rw [hrun]
    dsimp only
    rw [hrepoAt]
  · exact (hl.put List.prefix_rfl (some w'.files)).put (List.prefix_append l _) _
  · exact at?_put_below _ (List.cons_ne_nil _ _) hstored

/-- A pull of a checkout leaves a checkout of what it comes to. -/
theorem Opened.exists_pull (h : d.Opened p w name ours) (hreg : d.history.Regular)
    (hon : w.repository.head = some (.branch name) ∨
      Entries.get? name w.repository.branches = none) (refuses : Pull.Step → Bool) :
    ∃ site outcome w' w'' id d', d.siteOf p = .ok site ∧ d.read site = .ok w.repository ∧
      (Depot.pull refuses site).perform d = (outcome, d') ∧
      Pull.Comes (d.surroundings p refuses) name ours w outcome w' ∧ w'.Resembles w'' ∧
      d'.history = d.history ∧ w'.repository.namedHead? = some (name, id) ∧
      d'.Opened p w'' name id := by
  obtain ⟨l, hl, hfiles⟩ := h.place
  obtain ⟨dir, hdir, hproper, hread⟩ := h.directory
  have hcomes := Pull.comes_run (d.surroundings p refuses) h.named hon
  generalize hrun : (Pull.run (d.surroundings p refuses)).perform w = run at hcomes
  obtain ⟨outcome, w'⟩ := run
  dsimp only at hcomes
  obtain ⟨id, hsaved, hid, r, hread', hrhead, hrorigin, hrtracked, hrid⟩ :=
    hcomes.exists_restored (h := d.history) rfl hproper hread h.named
  have hdir' : w'.files.at? [repositoryDirName] = some dir :=
    (hcomes.at?_repository hreg).trans hdir
  obtain ⟨hput, hwork⟩ :=
    exists_at?_put (Repository.save w.repository w'.repository dir) hdir'
  obtain ⟨d', hpull, hhistory, hreaches, hat⟩ := h.exists_perform_pull hl hfiles hrun hdir'
  rw [← hhistory] at hread'
  exact ⟨_, outcome, w', ⟨r, _⟩, id, d', h.siteOf hl hfiles, h.read hfiles, hpull, hcomes,
    ⟨hwork, hrhead, hrorigin, hrtracked⟩, hhistory, hid,
    ⟨⟨⟨l, hreaches, hat⟩, ⟨_, hput, hsaved, hread'⟩⟩, hrid⟩⟩

end Depot

namespace CheckoutCache

variable {c : CheckoutCache} {url : String} {d d' : Depot} {w : WorkingCopy} {name : String}
  {ours : CommitId}

/-- A fetch of what is there pulls it. -/
theorem fetch_eq_of_pull {refuses : Pull.Step → Bool} {site : Site} {r : Repository}
    {outcome : Except Repository.Fault Pull.Outcome} (hsite : d.siteOf (c.path url) = .ok site)
    (hread : d.read site = .ok r) (hpull : (Depot.pull refuses site).perform d = (outcome, d')) :
    c.fetch url d refuses =
      ({ result := .ok { path := c.path url, fetched := (pulled outcome).2 }
         notes := [(pulled outcome).1] }, d') := by
  have hthere : d.disk.exists? (c.path url) = true := by
    cases hstat : d.disk.stat (c.path url) with
    | ok found =>
      rw [exists?, hstat]
      rfl
    | error f =>
      rw [Depot.siteOf, hstat] at hsite
      cases hsite
  unfold fetch refresh
  dsimp only
  rw [if_pos hthere, hsite]
  have hopen : (Except.ok site >>= fun site => (d.read site).map fun _ => site) = .ok site := by
    change (d.read site).map (fun _ => site) = _
    rw [hread]
    rfl
  rw [hopen]
  dsimp only
  rw [hpull]

/-- A fetch of a checkout that is there succeeds, tells what came of the pull, and leaves a checkout
of what the pull comes to. -/
theorem exists_fetch (h : d.Opened (c.path url) w name ours) (hreg : d.history.Regular)
    (hon : w.repository.head = some (.branch name) ∨
      Entries.get? name w.repository.branches = none) (refuses : Pull.Step → Bool) :
    ∃ outcome w' w'' id, Pull.Comes (d.surroundings (c.path url) refuses) name ours w outcome w' ∧
      (c.fetch url d refuses).1 =
        { result := .ok { path := c.path url, fetched := (pulled outcome).2 }
          notes := [(pulled outcome).1] } ∧
      w'.Resembles w'' ∧ (c.fetch url d refuses).2.history = d.history ∧
      w'.repository.namedHead? = some (name, id) ∧
      (c.fetch url d refuses).2.Opened (c.path url) w'' name id := by
  obtain ⟨site, outcome, w', w'', id, d', hsite, hread, hpull, hcomes, hlike, hhistory, hid, hafter⟩ :=
    h.exists_pull hreg hon refuses
  rw [fetch_eq_of_pull hsite hread hpull]
  exact ⟨outcome, w', w'', id, hcomes, rfl, hlike, hhistory, hid, hafter⟩

end CheckoutCache

end Scaffold
