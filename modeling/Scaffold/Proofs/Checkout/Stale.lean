import Scaffold.Proofs.Checkout.Course

/-!
# Checkouts that are left as they are

A fetch whose pull fails succeeds, and leaves the files and what is tracked as they were. The head
stays too, unless what fails is to put it on the branch that has moved by then, or to check out
(`stale_of_failed`). A later fetch that nothing hinders brings the files to what is incoming, if
that comes after the head that was left.

Where the head has moved without the files, a later fetch takes it for what the files are at. It
finds the checkout up to date, and the files stay as they were (`stale_lockedDepot`).
-/

namespace Scaffold

open Scaffold.Path
open Disk Node Repository

/-- Whether a commit is tracked in a working copy, and all that the commit tracks is there. -/
structure WorkingCopy.Agrees (w : WorkingCopy) (h : History) (id : CommitId) : Prop where
  tracked : w.repository.tracked = some id
  files : ∀ e ∈ h.snapshot id, w.tree (Snapshot.locationOf e.1) = some e.2.item

/-- What agrees with a snapshot is not changed by the snapshot taking its own place. -/
theorem Snapshot.replaces_self {s : Snapshot} {t : Layout}
    (h : ∀ e ∈ s, t (locationOf e.1) = some e.2.item) : Replaces s s t t where
  tracked := h
  gone e he hapart := ((hapart e he).1 List.prefix_rfl).elim
  rest _ _ := rfl

namespace CheckoutCache

variable {c : CheckoutCache} {url : String} {d : Depot} {w : WorkingCopy} {branch : String}
  {ours id : CommitId} {refuses : Pull.Step → Bool}

/-- A fetch that nothing hinders brings the files to what is incoming, if that comes after the head,
or is the head and the commit that the files are at. -/
theorem resumes_of_behind (h : d.CheckedOut (c.path url) w branch id) (hreg : d.history.Regular)
    (hagrees : w.Agrees d.history ours) (hgo : ∀ step, d.hinders (c.path url) refuses step = false)
    {tip : CommitId} (htip : c.incoming? url d refuses w branch = some tip)
    (hbehind : d.history.IsBehind id tip ∨ tip = ours ∧ id = ours) :
    (c.fetch url d refuses).1.result = .ok { path := c.path url, fetched := true } ∧
      ∃ w', (c.fetch url d refuses).2.CheckedOut (c.path url) w' branch tip ∧
        w'.Agrees d.history tip ∧
        Snapshot.Replaces (d.history.snapshot ours) (d.history.snapshot tip) w.tree w'.tree := by
  obtain ⟨fetched, w', id', hresult, -, hafter, hfollows⟩ :=
    exists_follows h hreg fun step _ => hgo step
  have hfetched : fetched = true := by
    by_contra hne
    rcases hfollows.failed.mp (by simpa using hne) with hnone | ⟨tip', hsome, hapart⟩
    · rw [htip] at hnone
      cases hnone
    · obtain rfl := Option.some.inj (htip.symm.trans hsome)
      rcases hbehind with hbehind | ⟨rfl, rfl⟩
      · exact hapart.2 hbehind.1
      · exact hapart.1 (.refl _ _)
  refine ⟨hfetched ▸ hresult, w', ?_⟩
  have hsnapshot : w.repository.snapshot d.history = d.history.snapshot ours := by
    rw [Repository.snapshot, hagrees.tracked]
    rfl
  rcases hbehind with hbehind | ⟨rfl, rfl⟩
  · obtain ⟨rfl, htracked, hfiles⟩ := hfollows.moved tip htip hbehind
    rw [hsnapshot] at hfiles
    exact ⟨hafter, ⟨htracked, hfiles.tracked⟩, hfiles⟩
  · have hstays : ∀ tip', c.incoming? url d refuses w branch = some tip' →
        ¬d.history.IsBehind id tip' := fun tip' htip' hbehind =>
      hbehind.ne (Option.some.inj (htip.symm.trans htip'))
    obtain ⟨rfl, htracked, hfiles⟩ := hfollows.stayed hstays
    rw [hfiles]
    exact ⟨hafter, ⟨htracked.trans hagrees.tracked, hfiles ▸ hagrees.files⟩,
      Snapshot.replaces_self hagrees.files⟩

/-- Whether a fetch of a checkout comes to a step of the pull that fails : one before it is known what
is incoming, the one that compares it with the head, or, if the head is behind it, any of those that
move the branch, the head and the files. -/
def Fails (c : CheckoutCache) (url : String) (d : Depot) (refuses : Pull.Step → Bool)
    (w : WorkingCopy) (name : String) (ours : CommitId) : Prop :=
  c.incoming? url d refuses w name = none ∨ d.hinders (c.path url) refuses .compare = true ∨
    ∃ tip, c.incoming? url d refuses w name = some tip ∧ d.history.IsBehind ours tip ∧
      ((∃ step, d.hinders (c.path url) refuses step = true) ∨
        Entries.get? name w.repository.branches = none)

/-- A pull that goes on from comparing is of a head that is behind, and there something fails. -/
theorem Fails.isBehind {name : String} (hfails : c.Fails url d refuses w name ours)
    {tip : CommitId} (htip : c.incoming? url d refuses w name = some tip)
    (hcompare : d.hinders (c.path url) refuses .compare = false) :
    d.history.IsBehind ours tip ∧ ((∃ step, d.hinders (c.path url) refuses step = true) ∨
      Entries.get? name w.repository.branches = none) := by
  rcases hfails with hnone | hrefused | ⟨tip', htip', hbehind, hwhy⟩
  · exact absurd (htip.symm.trans hnone) (Option.some_ne_none tip)
  · exact absurd (hcompare.symm.trans hrefused) Bool.false_ne_true
  · obtain rfl := Option.some.inj (htip.symm.trans htip')
    exact ⟨hbehind, hwhy⟩

/-- A pull that comes to a step that fails does fail. The files and what is tracked stay, and the
head moves only halfway through. -/
theorem Fails.stays {name : String} (hfails : c.Fails url d refuses w name ours)
    {outcome : Except Repository.Fault Pull.Outcome} {w₁ : WorkingCopy}
    (hcomes : Pull.Comes (d.surroundings (c.path url) refuses) name ours w outcome w₁)
    (hnamed : w.repository.namedHead? = some (name, ours))
    (hid : w₁.repository.namedHead? = some (name, id)) :
    (∃ f, outcome = .error f) ∧ w₁.files = w.files ∧
      w₁.repository.tracked = w.repository.tracked ∧ w₁.repository.origin = w.repository.origin ∧
      (id = ours ∨ d.history.IsBehind ours id ∧
        (d.hinders (c.path url) refuses .moveHead = true ∨
          d.hinders (c.path url) refuses .checkOut = true)) := by
  cases hcomes with
  | @stopped f r _ hr =>
    rw [hr.namedHead?_eq, hnamed] at hid
    exact ⟨⟨f, rfl⟩, rfl, hr.tracked, hr.origin, Or.inl (Prod.mk.inj (Option.some.inj hid)).2.symm⟩
  | upToDate htip hcompare hold _ => exact ((hfails.isBehind htip hcompare).1.2 hold).elim
  | diverged htip hcompare hapart _ =>
    exact (hapart.2 (hfails.isBehind htip hcompare).1.1).elim
  | fastForwarded htip _ hgo hr _ =>
    rcases (hfails.isBehind htip (hgo .compare)).2 with ⟨step, hrefused⟩ | hnone
    · exact absurd ((hgo step).symm.trans hrefused) Bool.false_ne_true
    · rw [namedHead?_of_branch hr.on, hnone] at hnamed
      cases hnamed
  | halfWay _ hbehind _ hrefused hr htracked =>
    rw [hr.namedHead?_eq] at hid
    exact ⟨⟨_, rfl⟩, rfl, htracked, hr.origin,
      Or.inr ⟨(Prod.mk.inj (Option.some.inj hid)).2 ▸ hbehind, hrefused⟩⟩

/-- If the fetch of a checkout comes to a step of the pull that fails, then it succeeds and tells that
nothing was fetched, and the files and what is tracked are as they were. So is the head, unless what
failed is to put it on the branch or to check out. A later fetch that nothing hinders, of a checkout
that was left so, brings the files to what is incoming then, if that comes after the head, or is the
commit that both the head and the files were left at. -/
theorem stale_of_failed {name : String} (h : d.Opened (c.path url) w name ours)
    (hon : w.repository.head = some (.branch name) ∨
      Entries.get? name w.repository.branches = none)
    (hreg : d.history.Regular) (hagrees : w.Agrees d.history ours)
    (hfails : c.Fails url d refuses w name ours) :
    (c.fetch url d refuses).1.result = .ok { path := c.path url, fetched := false } ∧
      (c.fetch url d refuses).2.history = d.history ∧
      ∃ w' id, (c.fetch url d refuses).2.Opened (c.path url) w' name id ∧
        w'.tree = w.tree ∧ w'.Agrees d.history ours ∧
        w'.repository.head = w.repository.head ∧ w'.repository.origin = w.repository.origin ∧
        (id = ours ∨ d.history.IsBehind ours id ∧
          (d.hinders (c.path url) refuses .moveHead = true ∨
            d.hinders (c.path url) refuses .checkOut = true)) ∧
        ∀ (later : Depot) (w₁ : WorkingCopy) (refuses₁ : Pull.Step → Bool) (tip : CommitId),
          d.history.commits <+: later.history.commits → later.history.Regular →
          later.CheckedOut (c.path url) w₁ name id → w₁.tree = w.tree →
          w₁.repository.tracked = some ours →
          (∀ step, later.hinders (c.path url) refuses₁ step = false) →
          c.incoming? url later refuses₁ w₁ name = some tip →
          (later.history.IsBehind id tip ∨ tip = ours ∧ id = ours) →
          (c.fetch url later refuses₁).1.result =
              .ok { path := c.path url, fetched := true } ∧
            ∃ w₂, (c.fetch url later refuses₁).2.CheckedOut (c.path url) w₂ name tip ∧
              w₂.Agrees later.history tip ∧
              Snapshot.Replaces (later.history.snapshot ours) (later.history.snapshot tip) w.tree
                w₂.tree := by
  obtain ⟨outcome, w₁, w', id, hcomes, hfetch, hlike, hhistory, hid, hafter⟩ :=
    exists_fetch h hreg hon refuses
  obtain ⟨⟨f, rfl⟩, hfiles, htracked, horigin, hmoved⟩ := hfails.stays hcomes h.named hid
  have htree : w'.tree = w.tree := by rw [hlike.tree, WorkingCopy.tree, hfiles, WorkingCopy.tree]
  have hstale : w'.Agrees d.history ours :=
    ⟨(hlike.tracked.trans htracked).trans hagrees.tracked, htree ▸ hagrees.files⟩
  refine ⟨by rw [hfetch]; rfl, hhistory, w', id, hafter, htree, hstale,
    hlike.head.trans hcomes.head_eq, hlike.origin.trans horigin, hmoved, ?_⟩
  intro later w₁ refuses₁ tip hgrow hreg₁ h₁ htree₁ htracked₁ hgo htip hbehind
  have hagrees₁ : w₁.Agrees later.history ours := by
    refine ⟨htracked₁, ?_⟩
    rw [History.snapshot_of_prefix hgrow (h.lt_length_of_tracked hagrees.tracked), htree₁]
    exact hagrees.files
  rw [← htree₁]
  exact resumes_of_behind h₁ hreg₁ hagrees₁ hgo htip hbehind

/-- A fetch in which the branch cannot be moved leaves all as it was, and the next one brings the
files to the newer commit. -/
theorem stale_courseDepot : ∃ w,
    (courseDepot 1).Opened (sampleCache.path "/srv/origin") w "main" 0 ∧
      w.repository.head = some (.branch "main") ∧ (courseDepot 1).history.Regular ∧
      w.Agrees (courseDepot 1).history 0 ∧
      sampleCache.Fails "/srv/origin" (courseDepot 1) (· == .moveBranch) w "main" 0 ∧
      let failed := sampleCache.fetch "/srv/origin" (courseDepot 1) (· == .moveBranch)
      failed.1.result = .ok { path := sampleCache.path "/srv/origin", fetched := false } ∧
      (sampleCache.fetch "/srv/origin" failed.2).1.result =
        .ok { path := sampleCache.path "/srv/origin", fetched := true } ∧
      ∃ w', (sampleCache.fetch "/srv/origin" failed.2).2.CheckedOut
          (sampleCache.path "/srv/origin") w' "main" 1 ∧
        w'.tree ["a.txt"] = some (.file "2".toUTF8 false) := by
  obtain ⟨w, hw, hfiles, horigin, htracked⟩ := checkedOut_courseDepot 1
  have hagrees : w.Agrees (courseDepot 1).history 0 := by
    refine ⟨htracked, fun e he => ?_⟩
    obtain rfl := List.mem_singleton.mp he
    rw [WorkingCopy.tree, hfiles]
    rfl
  have hfails : sampleCache.Fails "/srv/origin" (courseDepot 1) (· == .moveBranch) w "main" 0 := by
    refine Or.inr (Or.inr ⟨1, ?_, isBehind_courseDepot, Or.inl ⟨.moveBranch, rfl⟩⟩)
    rw [incoming?, path_sampleCache, Pull.incoming?, horigin]
    decide +kernel
  refine ⟨w, hw.toOpened, hw.head, regular_courseDepot 1, hagrees, hfails, ?_⟩
  obtain ⟨hresult, hhistory, w', id, hafter, htree, hstale, hhead, horigin', hmoved, hlater⟩ :=
    stale_of_failed hw.toOpened (Or.inl hw.head) (regular_courseDepot 1) hagrees hfails
  refine ⟨hresult, ?_⟩
  have hsteps : ∀ step ∈ Pull.Step.all, (courseDepot 1).hinders
      ⟨"/cache/e8a4999ef45acc2083835ef41eb7cba5"⟩ (· == .moveBranch) step = (step == .moveBranch) ∧
      (sampleCache.fetch "/srv/origin" (courseDepot 1) (· == .moveBranch)).2.hinders
        ⟨"/cache/e8a4999ef45acc2083835ef41eb7cba5"⟩ (fun _ => false) step = false := by
    decide +kernel
  rw [← path_sampleCache] at hsteps
  obtain rfl : id = 0 := by
    refine hmoved.resolve_right ?_
    rintro ⟨-, hrefused⟩
    rw [(hsteps .moveHead (Pull.Step.mem_all _)).1, (hsteps .checkOut (Pull.Step.mem_all _)).1]
      at hrefused
    exact absurd hrefused (by decide)
  have htip : sampleCache.incoming? "/srv/origin"
      (sampleCache.fetch "/srv/origin" (courseDepot 1) (· == .moveBranch)).2 (fun _ => false) w'
        "main" = some 1 := by
    rw [incoming?, path_sampleCache, Pull.incoming?, horigin', horigin]
    decide +kernel
  obtain ⟨hresult', w₂, hafter₂, hagrees₂, -⟩ := hlater _ w' (fun _ => false) 1
    (hhistory ▸ List.prefix_rfl) (hhistory ▸ regular_courseDepot 1)
    ⟨hafter, hhead.trans hw.head⟩ htree hstale.tracked
    (fun step => (hsteps step (Pull.Step.mem_all step)).2) htip
    (Or.inl (hhistory ▸ isBehind_courseDepot))
  rw [hhistory] at hagrees₂
  exact ⟨hresult', w₂, hafter₂, hagrees₂.files ("a.txt", .file "2".toUTF8 false) List.mem_cons_self⟩

/-! ## A head that is locked -/

/-- Where somebody keeps the head of the checkout from being written. -/
def lockFile : Location :=
  ["cache", "e8a4999ef45acc2083835ef41eb7cba5"] ++ repositoryDirName :: lockOf headFile

/-- A disk with a checkout that is behind, whose head is locked. -/
def lockedDepot : Depot := (courseDepot 1).stored lockFile (textFile "")

/-- A depot where nobody keeps the head from being written any more. -/
def unlocked (d : Depot) : Depot :=
  { d with disk := { d.disk with top := d.disk.top.put none lockFile } }

/-- The commit that the head of the checkout at a path is at. -/
def headAt? (d : Depot) (p : Path) : Option CommitId :=
  ((d.siteOf p).toOption.bind fun s => (d.read s).toOption).bind headCommit?

/-- The file of the samples in the checkout. -/
def sampleFile : Location := ["cache", "e8a4999ef45acc2083835ef41eb7cba5", "a.txt"]

/-- While the head is locked, a fetch leaves the files and moves the branch that the head is on. When
it is locked no longer, the next fetch finds that there is nothing to do, and the files are still
those of the older commit. -/
theorem stale_lockedDepot :
    let p := sampleCache.path "/srv/origin"
    let failed := sampleCache.fetch "/srv/origin" lockedDepot
    let later := sampleCache.fetch "/srv/origin" (unlocked failed.2)
    (headAt? lockedDepot p = some 0 ∧
      lockedDepot.disk.top.layout sampleFile = some (.file "1".toUTF8 false) ∧
      (lockedDepot.look "/srv/origin").toOption.bind (·.tip? "main") = some 1 ∧
      lockedDepot.history.relation 0 1 = .behind ∧
      lockedDepot.history.snapshot 1 = [("a.txt", .file "2".toUTF8 false)]) ∧
    (failed.1.result.toOption = some { path := p, fetched := false } ∧
      headAt? failed.2 p = some 1 ∧
      failed.2.disk.top.layout sampleFile = some (.file "1".toUTF8 false)) ∧
    (unlocked failed.2).disk.top.layout lockFile = none ∧
      later.1.result.toOption = some { path := p, fetched := true } ∧
      later.2.disk.top.layout sampleFile = some (.file "1".toUTF8 false) := by
  decide +kernel

end CheckoutCache

end Scaffold
