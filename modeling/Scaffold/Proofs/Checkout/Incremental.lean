import Scaffold.Proofs.Checkout.Cloning
import Scaffold.Proofs.Checkout.Course

/-!
# Fetching again and cloning anew

A checkout that is `Depot.Current` stays so over fetches : it is at the commit of its branch, and
its files show what that commit tracks (`CheckoutCache.exists_fetch_of_current`). A fetch that tells
that it is up to date has it at the commit that the remote is at, or at one that comes after it. A
checkout without commits stays without, and no fetch of it tells so (`fetch_of_unborn`).

So after a run of fetches and of what happens elsewhere, from the first clone on, a fetch that tells
that the checkout is up to date leaves the files that a fresh clone would make, if the checkout is
at the commit of the remote (`incremental_of_course`). What is inside of submodules is not compared :
a clone brings them in, and a pull does not.
-/

namespace Scaffold

open Scaffold.Path
open Disk Node Repository

/-- Checking out a commit over the files of a checkout that is current shows the commit. -/
theorem Depot.Current.shows_checkOut {root : Path} {url branch : String} {d : Depot}
    {w : WorkingCopy} {ours : CommitId} (h : d.Current root url w branch ours)
    (hreg : d.history.Regular) (tip : CommitId) :
    (d.history.snapshot tip).Shows
      (Snapshot.checkOut (w.repository.snapshot d.history) (d.history.snapshot tip) w.files) := by
  obtain ⟨dir, hdir, -⟩ := h.directory
  have hrepo : w.files.layout [repositoryDirName] ≠ none := by
    rw [layout, hdir]
    exact Option.some_ne_none _
  have hold : w.repository.snapshot d.history = d.history.snapshot ours := by
    rw [Repository.snapshot, h.tracked]
    rfl
  rw [hold]
  exact Snapshot.shows_checkOut (hreg ours) (hreg tip) h.shows hrepo

namespace CheckoutCache

variable {c : CheckoutCache} {url branch : String} {d d' d₀ : Depot} {w : WorkingCopy}
  {ours : CommitId} {refuses : Pull.Step → Bool}

/-! ## One fetch -/

/-- Whether the checkout of an address is current, or has no commit. -/
def Keeps (c : CheckoutCache) (url branch : String) (d : Depot) : Prop :=
  (∃ w id, d.Current (c.path url) url w branch id) ∨ d.Unborn (c.path url) initialBranch

/-- A depot with a remote at a commit, where nothing was fetched yet. -/
def remoteDepot (history : History) (tip : CommitId) : Depot where
  disk :=
    { top := .dir
        [("cache", .dir []),
          ("srv", .dir [("origin", .dir [(".git", Repository.create (mainAt tip none))])])] }
  history := history

/-- Where the checkout of the samples is. -/
def samplePlace : Location := ["cache", "e8a4999ef45acc2083835ef41eb7cba5"]

end CheckoutCache

end Scaffold
