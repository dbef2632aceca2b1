import Scaffold.Proofs.Checkout.Cloning
import Scaffold.Proofs.Checkout.Sparing
import Scaffold.Proofs.Repository.Made

/-!
# Entering a submodule

Bringing a submodule in makes its repository twice, without commits before its remote is looked at
and with those of the remote after it, and then checks out the commit that is tracked
(`perform_bringIn`). If any of it fails, the site of the submodule is left `Blank`, and otherwise it
is `Fresh` at the commit (`exists_fresh`). Whatever comes of it, only that site is touched
(`enter_cases`).
-/

namespace Scaffold

open Scaffold.Path
open Disk Node Repository Submodule

/-- A depot in which a repository was made at a site, and the text that leads to it. -/
def Depot.prepared (d : Depot) (s : Site) (r : Repository) : Depot :=
  let top := Node.force (create r) s.directory d.disk.top
  let top := Node.force (textFile (siteText s)) (s.files ++ [repositoryDirName]) top
  { d with disk := { d.disk with top } }

namespace Submodule

variable {part : String} {root : Location} {d d' : Depot} {s : Site} {sub : Submodule}
  {id : CommitId}

/-! ## Changes at a site -/

/-- A change of the tree at a location in the files or in the repository of a site. -/
theorem spares_of_change {top : Node} {y x : Location} (hy : y ∈ [s.files, s.directory])
    (hx : y <+: x) (hsame : ∀ l, Apart x l → top.at? l = d.disk.top.at? l)
    (hdirs : ∀ l, l <+: y → d.disk.top.layout l = some .dir → top.layout l = some .dir) :
    Spares (· = s) d { d with disk := { d.disk with top } } where
  history := rfl
  here := rfl
  apart l hl := by
    have hsep : Apart y l := by
      rcases List.mem_cons.mp hy with rfl | hy
      · exact (hl s rfl).1
      · exact List.mem_singleton.mp hy ▸ (hl s rfl).2
    obtain ⟨r, rfl⟩ := hx
    exact hsame l (hsep.append_left r)
  dirs l hl hdir := by
    have hbelow : y <+: l → y = l := by
      rcases List.mem_cons.mp hy with rfl | hy
      · exact (hl s rfl).1
      · exact List.mem_singleton.mp hy ▸ (hl s rfl).2
    rcases apart_or_prefix x l with hsep | hpre | hpre
    · rw [layout, hsame l hsep]
      exact hdir
    · exact hdirs l (hbelow (hx.trans hpre) ▸ List.prefix_rfl) hdir
    · refine hdirs l ?_ hdir
      exact (List.prefix_or_prefix_of_prefix hpre hx).elim id fun hp => hbelow hp ▸ List.prefix_rfl

/-- Forcing something in, a directory if it is in place of all the files or the repository. -/
theorem spares_force {y x : Location} (hy : y ∈ [s.files, s.directory]) (hx : y <+: x) {new : Node}
    (hnew : x = y → new.layout [] = some .dir) :
    Spares (· = s) d { d with disk := { d.disk with top := Node.force new x d.disk.top } } := by
  refine spares_of_change hy hx (fun l hsep => at?_force_of_apart new hsep _) fun l hpre hdir => ?_
  by_cases heq : l = x
  · subst heq
    have hat := at?_force_append new l d.disk.top []
    rw [List.append_nil] at hat
    rw [layout, hat]
    exact hnew (hpre.eq_of_length_le hx.length_le)
  · exact layout_force_above (hpre.trans hx) heq _

/-- Storing a directory in place of all the files or the repository. -/
theorem spares_stored {y : Location} (hy : y ∈ [s.files, s.directory]) {new : Node}
    (hnew : new.layout [] = some .dir) : Spares (· = s) d (d.stored y new) := by
  refine spares_of_change hy List.prefix_rfl
    (fun l hsep => at?_put_of_diverging _ _ hsep.1 hsep.2) fun l hpre hdir => ?_
  by_cases heq : l = y
  · subst heq
    obtain ⟨m, hm, -⟩ := layout_eq_some.mp hdir
    rw [layout, at?_put_of_at? new hm]
    exact hnew
  · rw [layout_put_of_outside _ _ fun hp => heq (hpre.eq_of_length_le hp.length_le)]
    exact hdir

/-! ## Making the repository -/

theorem layout_create_nil (r : Repository) : (create r).layout [] = some .dir :=
  layout_above (layout_create r (l := commitsDir) (by decide)) List.nil_prefix

/-- Making a repository changes a depot at the site alone. There is the repository then, and the text
that leads there is alone in a directory where nothing else was. -/
theorem prepared_spec (hsep : Apart s.files s.directory)
    (hfiles : d.disk.top.at? s.files = some (.dir []) ∨
      ∃ m, d.disk.top.at? s.files = some (.dir [(repositoryDirName, m)])) (r : Repository) :
    Spares (· = s) d (d.prepared s r) ∧
      (d.prepared s r).disk.top.at? s.directory = some (create r) ∧
      (d.prepared s r).disk.top.at? s.files =
        some (.dir [(repositoryDirName, textFile (siteText s))]) := by
  have hmade : Spares (· = s) d
      { d with disk := { d.disk with top := Node.force (create r) s.directory d.disk.top } } :=
    spares_force (y := s.directory) (by simp) List.prefix_rfl fun _ => layout_create_nil r
  have hbeside : s.files <+: s.files ++ [repositoryDirName] := List.prefix_append _ _
  refine ⟨hmade.trans (spares_force (y := s.files) (by simp) hbeside fun h => ?_), ?_, ?_⟩
  · exact absurd h (by simp)
  · rw [Depot.prepared, at?_force_of_apart _ (hsep.append_left _)]
    have hat := at?_force_append (create r) s.directory d.disk.top []
    rwa [List.append_nil, at?_nil] at hat
  · rw [Depot.prepared, at?_force_below, at?_force_of_apart _ hsep.symm]
    rcases hfiles with hempty | ⟨m, hm⟩
    · rw [hempty]
      rfl
    · rw [hm]
      rfl

/-! ## Checking out -/

/-- What the head is at is checked out in place of nothing. -/
theorem perform_checkOutHead {h : History} {r : Repository} {files : Node}
    (hhead : r.head = some (.detached id)) (hnone : r.tracked = none) :
    (Pull.checkOutHead h).perform ⟨r, files⟩ =
      (.ok (), ⟨{ r with tracked := some id },
        Snapshot.checkOut [] (h.snapshotOf (some id)) files⟩) := by
  have hcommit : r.headCommit? = some id := by
    rw [headCommit?, hhead]
    rfl
  have hsnapshot : r.snapshot h = [] := by
    rw [Repository.snapshot, hnone]
    rfl
  have hrun : (Pull.checkOutHead h).perform ⟨r, files⟩ =
      (.ok (), ⟨{ r with tracked := r.headCommit? },
        Snapshot.checkOut (r.snapshot h) (r.headCommit?.elim [] h.snapshot) files⟩) := rfl
  rw [hrun, hcommit, hsnapshot]
  rfl

/-- Checking out what the head of a repository is at, when nothing was tracked before. -/
theorem perform_checkOut (hsep : Apart s.files s.directory) {files n : Node} {r : Repository}
    (hfiles : d.disk.top.at? s.files = some files) (htop : files.layout [] = some .dir)
    (hn : d.disk.top.at? s.directory = some n) (hread : ofDir d.history n = .ok r)
    (hhead : r.head = some (.detached id)) (hnone : r.tracked = none)
    (hid : id < d.history.commits.length) :
    ∃ d', (Depot.changeCopy s (Pull.checkOutHead d.history)).perform d = (.ok (), d') ∧
      Spares (· = s) d d' ∧ TracksAt d' s (some id) ∧
      d'.disk.top.at? s.files =
        some (Snapshot.checkOut [] (d.history.snapshotOf (some id)) files) := by
  have hcopy : d.workingCopy s = .ok ⟨r, files⟩ := by
    rw [Depot.workingCopy, hfiles, Depot.read, hn]
    dsimp only
    rw [hread]
    rfl
  obtain ⟨r', hread', htracked⟩ :=
    exists_ofDir_track hread (by rw [hnone]; exact (Option.some_ne_none id).symm) hid
  have hfresh := Snapshot.layout_checkOut_nil [] (d.history.snapshotOf (some id)) htop
  -- The files are stored first, and then what changed about the repository.
  generalize hstored : d.stored s.files
    (Snapshot.checkOut [] (d.history.snapshotOf (some id)) files) = d₁
  have hspares₁ : Spares (· = s) d d₁ := hstored ▸ spares_stored (by simp) hfresh
  have hdir₁ : d₁.disk.top.at? s.directory = some n := by
    rw [← hn, ← hstored]
    exact at?_put_of_diverging _ _ hsep.1 hsep.2
  have hfiles₁ : d₁.disk.top.at? s.files =
      some (Snapshot.checkOut [] (d.history.snapshotOf (some id)) files) := by
    rw [← hstored]
    exact at?_put_of_at? _ hfiles
  have htop' : (save r { r with tracked := some id } n).layout [] = some .dir := by
    obtain ⟨entries, hentries⟩ :=
      isDir_eq_true.mp (Depot.isDir_of_isRepository (Depot.isRepository_of_ofDir hread'))
    rw [hentries]
    rfl
  refine ⟨d₁.stored s.directory (save r { r with tracked := some id } n), ?_,
    hspares₁.trans (spares_stored (by simp) htop'), ⟨_, r', at?_put_of_at? _ hdir₁, ?_, htracked⟩, ?_⟩
  · rw [Depot.perform_changeCopy, hcopy]
    dsimp only
    rw [perform_checkOutHead hhead hnone]
    dsimp only
    rw [hstored, hdir₁]
  · rw [← hread', ← hspares₁.history]
    rfl
  · rw [← hfiles₁]
    exact at?_put_of_diverging _ _ hsep.symm.1 hsep.symm.2

/-! ## Bringing a submodule in -/

/-- What bringing a submodule in does. -/
theorem perform_bringIn (s : Site) (sub : Submodule) (id : CommitId) (d : Depot) :
    (bringIn s sub id).perform d =
      match d.read s with
      | .error e => (.error e, d)
      | .ok r =>
        match sub.url with
        | none => (.error (.noUrl sub.name), d)
        | some written =>
          match resolveAddress (r.origin.getD "") written with
          | none => (.error (.noUrl sub.name), d)
          | some url =>
            let d₁ := d.prepared (site s sub) (Repository.new initialBranch)
            match d₁.look url with
            | .error e => (.error e, d₁)
            | .ok remote =>
              if remote.commits.contains id then
                let cloned : Repository :=
                  { head := some (.detached id), commits := remote.commits, origin := some url }
                (Depot.changeCopy (site s sub) (Pull.checkOutHead d.history)).perform
                  (d₁.prepared (site s sub) cloned)
              else (.error .noCommit, d₁) := by
  have hinspect {α : Type} (f : Depot → Except Repository.Fault α) (d : Depot) :
      (Depot.inspect f).perform d = (f d, d) := rfl
  have hprepare (s : Site) (r : Repository) (d : Depot) :
      (prepare s r).perform d = (.ok (), d.prepared s r) := rfl
  unfold bringIn
  rw [Depot.Action.perform_bind, hinspect]
  cases d.read s with
  | error e => rfl
  | ok r =>
    dsimp only
    cases sub.url with
    | none => rfl
    | some written =>
      dsimp only
      cases resolveAddress (r.origin.getD "") written with
      | none => rfl
      | some url =>
        dsimp only
        rw [Depot.Action.perform_bind, hprepare]
        dsimp only
        rw [Depot.Action.perform_bind, hinspect]
        cases (d.prepared (site s sub) (Repository.new initialBranch)).look url with
        | error e => rfl
        | ok remote =>
          dsimp only
          cases remote.commits.contains id with
          | false => rfl
          | true => rfl

/-- A repository that is made without commits tracks nothing. -/
theorem tracksAt_new {h : History} (hh : d.history = h)
    (hdir : d.disk.top.at? s.directory = some (create (Repository.new initialBranch))) :
    TracksAt d s none := by
  obtain ⟨r, hr, -, -, htracked⟩ :=
    exists_ofDir_create (h := h) (r := Repository.new initialBranch) rfl nofun
  exact ⟨_, r, hdir, hh ▸ hr, htracked⟩

/-- Making a repository with its head at a commit that is known, and checking that out, leaves the
site fresh at the commit. -/
theorem exists_fresh (hs : ∃ w v, IsBeside part root s w v) (hsep : Apart s.files s.directory)
    {m : Node} (hfiles : d.disk.top.at? s.files = some (.dir [(repositoryDirName, m)]))
    {r : Repository} (hhead : r.head = some (.detached id)) (hnone : r.tracked = none)
    (hid : id < d.history.commits.length) :
    ∃ d', (Depot.changeCopy s (Pull.checkOutHead d.history)).perform (d.prepared s r) =
        (.ok (), d') ∧
      Spares (· = s) d d' ∧ Fresh part root d' s (some id) := by
  obtain ⟨hspares, hdir, hfiles'⟩ := prepared_spec hsep (Or.inr ⟨m, hfiles⟩) r
  obtain ⟨r', hr', hhead', -, htracked⟩ := exists_ofDir_create (h := d.history) hhead fun _ h =>
    absurd (hnone.symm.trans h) (Option.some_ne_none _).symm
  rw [headOfText?_detached hid] at hhead'
  obtain ⟨d', hrun, hspares', htracks, hshown⟩ := perform_checkOut hsep hfiles' rfl hdir hr' hhead'
    (htracked.trans hnone) hid
  refine ⟨d', hrun, hspares.trans hspares', hs, htracks, textFile (siteText s), ?_, ?_⟩
  · rw [beacon, if_neg fun heq => hsep.1 (by rw [heq]; exact List.prefix_append _ _)]
    rfl
  · rw [hspares'.history]
    exact hshown

/-- Bringing in a submodule whose directory is empty leaves its site blank and fails, or it leaves it
fresh at the commit. Nothing else is touched. -/
theorem bringIn_cases {snapshot : Snapshot} {w v : Location} (hs : IsBeside part root s w v)
    (hsub : sub.Fits part snapshot) (hcommit : sub.commit = some id)
    (hempty : d.disk.top.at? (site s sub).files = some (.dir [])) :
    ∃ d', Spares (fun u => sub.IsKnown ∧ u = site s sub) d d' ∧
      ((∃ e, (bringIn s sub id).perform d = (.error e, d')) ∧ Blank part root d' (site s sub) ∨
        sub.IsKnown ∧ (bringIn s sub id).perform d = (.ok (), d') ∧
          Fresh part root d' (site s sub) (some id)) := by
  rw [perform_bringIn]
  cases d.read s with
  | error e => exact ⟨d, .refl _ d, Or.inl ⟨⟨e, rfl⟩, Or.inl hempty⟩⟩
  | ok r =>
    dsimp only
    cases hurl : sub.url with
    | none => exact ⟨d, .refl _ d, Or.inl ⟨⟨_, rfl⟩, Or.inl hempty⟩⟩
    | some written =>
      dsimp only
      cases resolveAddress (r.origin.getD "") written with
      | none => exact ⟨d, .refl _ d, Or.inl ⟨⟨_, rfl⟩, Or.inl hempty⟩⟩
      | some url =>
        have hknown : sub.IsKnown := ⟨by simp [hcommit], by simp [hurl]⟩
        have hown {d d' : Depot} (hspares : Spares (· = site s sub) d d') :
            Spares (fun u => sub.IsKnown ∧ u = site s sub) d d' :=
          hspares.mono fun u hu => ⟨u, ⟨hknown, hu⟩, List.prefix_rfl, List.prefix_rfl⟩
        -- From here on a repository without commits is there.
        have hbeside : ∃ w v, IsBeside part root (site s sub) w v :=
          ⟨_, _, hs.site hsub hknown⟩
        have hsep := apart_site hs hsub
        obtain ⟨hspares, hdir, hfiles⟩ :=
          prepared_spec hsep (Or.inl hempty) (Repository.new initialBranch)
        have hhistory := hspares.history
        generalize d.prepared (site s sub) (Repository.new initialBranch) = d₁
          at hspares hdir hfiles hhistory ⊢
        have hblank : Blank part root d₁ (site s sub) :=
          Or.inr ⟨hbeside, hfiles, tracksAt_new rfl hdir⟩
        dsimp only
        cases hlook : d₁.look url with
        | error e => exact ⟨d₁, hown hspares, Or.inl ⟨⟨e, rfl⟩, hblank⟩⟩
        | ok remote =>
          dsimp only
          split
          · rename_i hmem
            obtain ⟨dir, hread⟩ := Depot.exists_of_look hlook
            have hid := lt_length_of_mem_commits hread (List.contains_iff_mem.mp hmem)
            obtain ⟨d₂, hrun, hspares', hfresh⟩ := exists_fresh hbeside hsep hfiles
              (r := { head := some (.detached id), commits := remote.commits, origin := some url })
              rfl rfl hid
            rw [← hhistory, hrun]
            exact ⟨d₂, hown (hspares.trans hspares'), Or.inr ⟨hknown, rfl, hfresh⟩⟩
          · exact ⟨d₁, hown hspares, Or.inl ⟨⟨_, rfl⟩, hblank⟩⟩

/-- Entering a submodule that is tracked is to bring it in and to open what is at its files. -/
theorem perform_enter (hcommit : sub.commit = some id) (s : Site) (d : Depot) :
    (enter s sub).perform d =
      match (bringIn s sub id).perform d with
      | (.error e, d') => (.error e, d')
      | (.ok _, d') =>
        match d'.siteAt? (site s sub).files with
        | some inner => (.ok inner, d')
        | none => (.error .notRepository, d') := by
  unfold enter
  rw [hcommit]
  dsimp only
  rw [Depot.Action.perform_bind]
  cases (bringIn s sub id).perform d with
  | mk result d' =>
    cases result with
    | error e => rfl
    | ok _ =>
      dsimp only
      rw [Depot.Action.perform_get_bind]
      cases hsite : d'.siteAt? (site s sub).files <;>
        · rw [site] at hsite
          rw [hsite]
          rfl

/-- A submodule that is not tracked is opened only. -/
theorem perform_enter_of_untracked (hcommit : sub.commit = none) (s : Site) (d : Depot) :
    (enter s sub).perform d =
      ((d.siteAt? (site s sub).files).elim (.error .notRepository) .ok, d) := by
  unfold enter
  rw [hcommit]
  dsimp only
  rw [Depot.Action.perform_get_bind]
  cases hsite : d.siteAt? (site s sub).files <;>
    · rw [site] at hsite
      rw [hsite]
      rfl

/-- Entering a submodule whose directory is empty leaves its site blank and fails, or it leaves it
fresh at the commit that is tracked and opens it. Nothing else is touched. -/
theorem enter_cases {snapshot : Snapshot} {w v : Location} (hreg : d.history.Regular)
    (hs : IsBeside part root s w v) (hsub : sub.Fits part snapshot) (hcommit : sub.commit = some id)
    (hempty : d.disk.top.at? (site s sub).files = some (.dir [])) :
    ∃ d', Spares (fun u => sub.IsKnown ∧ u = site s sub) d d' ∧
      ((∃ e, (enter s sub).perform d = (.error e, d')) ∧ Blank part root d' (site s sub) ∨
        sub.IsKnown ∧ (enter s sub).perform d = (.ok (site s sub), d') ∧
          Fresh part root d' (site s sub) sub.commit) := by
  obtain ⟨d', hspares, ⟨⟨e, he⟩, hblank⟩ | ⟨hknown, hok, hfresh⟩⟩ :=
    bringIn_cases hs hsub hcommit hempty
  · exact ⟨d', hspares, Or.inl ⟨⟨e, by rw [perform_enter hcommit, he]⟩, hblank⟩⟩
  · refine ⟨d', hspares, Or.inr ⟨hknown, ?_, hcommit ▸ hfresh⟩⟩
    have hstands := hfresh.stands (hspares.history ▸ hreg)
    rw [perform_enter hcommit, hok]
    dsimp only
    rw [hstands.siteAt?]

end Submodule

end Scaffold
