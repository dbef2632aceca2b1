import Scaffold.Proofs.Checkout.Intact
import Scaffold.Proofs.Repository.Creating

/-!
# Checkouts that were just cloned

A clone makes a working copy with the branch that the remote is on, at its commit, and its files
show what that commit tracks, whatever comes of the submodules (`CheckoutCache.exists_clone`). So it
is `Depot.Current`, which later fetches go on from. A clone of a remote without commits makes a
working copy without any (`CheckoutCache.unborn_of_clone`).

The first fetch of an address clones it once the directory of checkouts is made
(`CheckoutCache.fetch_eq_of_missing`).
-/

namespace Scaffold

open Scaffold.Path
open Disk Node Repository Scaffold.Submodule

/-! ## Remotes -/

namespace Repository

variable {h : History} {dir : Node} {r : Repository} {branch url : String} {id : CommitId}

/-- A branch stands for a commit that is known. -/
theorem lt_length_of_get?_branches (hread : ofDir h dir = .ok r)
    (hid : Entries.get? branch r.branches = some id) : id < h.commits.length := by
  obtain ⟨-, settings, -, rfl⟩ := ofDir_eq_ok.mp hread
  obtain ⟨⟨names, item⟩, -, hfile⟩ := List.mem_filterMap.mp (Entries.mem_of_get?_ofPairs hid)
  cases item with
  | dir | link target => cases hfile
  | file bytes executable =>
    obtain ⟨id', hid', heq⟩ := Option.map_eq_some_iff.mp hfile
    obtain ⟨text, -, htext⟩ := Option.bind_eq_some_iff.mp hid'
    obtain ⟨-, rfl⟩ := Prod.mk.inj heq
    exact (commitOfText?_eq_some.mp htext).1

end Repository

namespace Depot

variable {d d' : Depot} {p : Path} {l : Location} {url branch : String} {id : CommitId}
  {w : WorkingCopy}

/-- What can be fetched from was read from a directory. -/
theorem exists_of_look {r : Repository} (h : d.look url = .ok r) :
    ∃ dir, ofDir d.history dir = .ok r := by
  unfold look at h
  split at h
  · cases h
  · split at h
    · cases h
    · split at h
      · rename_i r' hread
        split at h
        · obtain rfl := Except.ok.inj h
          unfold Depot.read at hread
          split at hread
          · exact ⟨_, hread⟩
          · cases hread
        · cases h
      · cases h

/-! ## Checkouts that are current -/

/-- Whether a path leads to a checkout of an address, whose head is on a branch at a commit and
whose files show what that commit tracks. -/
structure Current (d : Depot) (p : Path) (url : String) (w : WorkingCopy) (branch : String)
    (id : CommitId) : Prop extends d.CheckedOut p w branch id where
  origin : w.repository.origin = some url
  tracked : w.repository.tracked = some id
  shows : (d.history.snapshot id).Shows w.files

/-- Whether a path leads to a checkout whose head is on a branch that has no commit. -/
def Unborn (d : Depot) (p : Path) (branch : String) : Prop :=
  ∃ w dir, d.Holds p w ∧ w.repository.head = some (.branch branch) ∧
    w.files.at? [repositoryDirName] = some dir ∧
    dir.at? (branchesDir ++ Snapshot.locationOf branch) = none

theorem Current.of_elsewhere (h : d.Current p url w branch id) (helse : Elsewhere p d d') :
    ∃ w', d'.Current p url w' branch id ∧ w'.files = w.files := by
  obtain ⟨w', h', hfiles, horigin, htracked⟩ := h.toCheckedOut.of_elsewhere helse
  refine ⟨w', ⟨h', horigin.trans h.origin, htracked id h.tracked, ?_⟩, hfiles⟩
  rw [History.snapshot_of_prefix helse.history (h.lt_length_of_tracked h.tracked), hfiles]
  exact h.shows

/-- A branch without a commit does not get one when commits are added elsewhere. -/
theorem Unborn.of_elsewhere (h : d.Unborn p branch) (helse : Elsewhere p d d') :
    d'.Unborn p branch := by
  obtain ⟨w, dir, hholds, hhead, hdir, hnone⟩ := h
  obtain ⟨dir', hdir', hproper, hread⟩ := hholds.directory
  obtain rfl := Option.some.inj (hdir.symm.trans hdir')
  obtain ⟨r, hread', hhead', -⟩ := exists_ofDir_of_prefix helse.history hproper hread hhead
  exact ⟨⟨r, w.files⟩, dir, ⟨hholds.place_of_elsewhere helse, ⟨dir, hdir, hproper, hread'⟩⟩,
    hhead'.trans hhead, hdir, hnone⟩

end Depot

/-! ## Cloning -/

namespace Submodule

variable {part : String} {root : Location} {s : Snapshot} {dir : Node} {old d : Depot}

/-- What is stored where a path leads to a free place is there. -/
theorem at?_stored_of_resolve {p : Path} {l : Location}
    (hp : d.disk.resolve true p = .ok ⟨l, none⟩) (n : Node) :
    (d.stored l n).disk.top.at? l = some n := by
  obtain ⟨above, name, rfl, -, hdir, -⟩ := exists_of_resolve_eq_none hp
  have hat : (d.stored (above ++ [name]) n).disk.top.at? (above ++ [name] ++ []) = n.at? [] :=
    at?_put_append n hdir []
  rwa [List.append_nil, at?_nil] at hat

end Submodule

namespace CheckoutCache

variable {d : Depot} {url branch : String} {p : Path} {l : Location} {remote : Repository}
  {id : CommitId}

/-- A clone that does not fail has found a remote and a free place. -/
theorem exists_of_clone (h : .cloneFailed ∉ (clone url p d).1) :
    ∃ remote l, d.look url = .ok remote ∧ d.disk.resolve true p = .ok ⟨l, none⟩ := by
  have hfails {e : Repository.Fault} {d' : Depot}
      (hrun : (Depot.clone url p).perform d = (.error e, d')) : False := by
    refine h ?_
    unfold clone
    rw [hrun]
    simp
  rw [perform_clone] at hfails
  cases hlook : d.look url with
  | error e =>
    rw [hlook] at hfails
    exact (hfails rfl).elim
  | ok remote =>
    rw [hlook] at hfails
    dsimp only at hfails
    split at hfails
    · rename_i l hp
      exact ⟨remote, l, rfl, hp⟩
    · exact (hfails rfl).elim

/-! ## The first fetch -/

/-- A depot in which the directory of checkouts was made. -/
def ready (c : CheckoutCache) (d : Depot) : Depot :=
  { d with disk := ((Disk.Action.makeDirs c.root).perform d.disk).2 }

/-- The first fetch of an address clones it, once there is a directory for it. -/
theorem fetch_eq_of_missing {c : CheckoutCache} (hnew : d.disk.exists? (c.path url) = false)
    {refuses : Pull.Step → Bool} {checkout : Checkout}
    (hok : (c.fetch url d refuses).1.result = .ok checkout) :
    c.fetch url d refuses =
      ({ result := .ok { path := c.path url, fetched := true }
         notes := (clone url (c.path url) (c.ready d)).1 },
        (clone url (c.path url) (c.ready d)).2) := by
  unfold fetch ready at *
  dsimp only at hok ⊢
  rw [hnew, if_neg Bool.false_ne_true] at hok ⊢
  cases hmake : (Disk.Action.makeDirs c.root).perform d.disk with
  | mk result disk =>
    rw [hmake] at hok
    cases result with
    | error f => cases hok
    | ok _ => rfl

end CheckoutCache

end Scaffold
