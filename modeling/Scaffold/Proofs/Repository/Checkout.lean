import Scaffold.Checkout
import Scaffold.Proofs.Disk.Changes
import Scaffold.Proofs.Repository.Submodule

/-!
# What a fetch leaves alone

A fetch pulls a checkout that is there, or makes the directory of checkouts and clones. It stores
in the checkout and in its repository, and where directories are missing on the way to the
checkouts. `CheckoutCache.Clear` says that a place has none of that at it, above it or below it,
and then a fetch changes nothing at the place or below it, whether it succeeds or not
(`sameAt_fetch`).
-/

namespace Scaffold

open Scaffold.Path
open Disk Repository Scaffold.Submodule

/-! ## The same at a place -/

/-- Whether two disks have the same at a place and below it. -/
def Disk.SameAt (place : Location) (d d' : Disk) : Prop :=
  ∀ r, d'.top.layout (place ++ r) = d.top.layout (place ++ r)

theorem Disk.SameAt.refl (place : Location) (d : Disk) : SameAt place d d := fun _ => rfl

theorem Disk.SameAt.trans {place : Location} {d d₁ d' : Disk} (h : SameAt place d d₁)
    (h' : SameAt place d₁ d') : SameAt place d d' := fun r => (h' r).trans (h r)

/-! ## Cloning -/

theorem perform_clone (url : String) (p : Path) (d : Depot) :
    (Depot.clone url p).perform d =
      match d.look url with
      | .error e => (.error e, d)
      | .ok remote =>
        match d.disk.resolve true p with
        | .ok ⟨l, none⟩ =>
          let r := ofClone url remote
          (.ok { directory := l ++ [repositoryDirName], files := l },
            d.stored l (Snapshot.checkOut [] (r.snapshot d.history)
              (.dir [(repositoryDirName, create r)])))
        | _ => (.error (.unreachable url), d) := by
  unfold Depot.clone
  rw [Depot.Action.perform_get_bind, Depot.Action.perform_bind]
  have hlook : (Depot.inspect (·.look url)).perform d = (d.look url, d) := rfl
  rw [hlook]
  cases d.look url with
  | error e => rfl
  | ok remote =>
    dsimp only
    cases d.disk.resolve true p with
    | error f => rfl
    | ok found =>
      obtain ⟨l, n⟩ := found
      cases n <;> rfl

/-- What is in a checkout that was just cloned is tame. -/
theorem kept_clone {part : String} {d : Depot} (hlacks : d.history.Lacks part) {l : Location}
    (hnone : d.disk.top.at? l = none) (r : Repository) :
    Kept part l d (d.stored l (Snapshot.checkOut [] (r.snapshot d.history)
      (.dir [(repositoryDirName, create r)]))) where
  history := rfl
  tame x i hx := by
    have hgains := Node.gains_put (P := fun x i => ∀ r, x = l ++ r → Tame part r i)
      (some (Snapshot.checkOut [] (r.snapshot d.history)
        (.dir [(repositoryDirName, create r)]))) (l := l) d.disk.top ?_
    · rcases hgains _ i hx with hold | hnew
      · rw [Node.layout, Node.at?_append, hnone] at hold
        cases hold
      · exact hnew x rfl
    · intro m hm y i hy y' hyy'
      obtain rfl := List.append_cancel_left hyy'
      obtain rfl := Option.some.inj hm
      have hout := Snapshot.gains_checkOut (P := Tame part)
        (tame_dir List.not_mem_nil List.not_mem_nil) (s := r.snapshot d.history)
        (fun e he => allows_tracked (w := []) List.not_mem_nil List.not_mem_nil
          (hlacks.of_mem he)) []
        (.dir [(repositoryDirName, create r)])
      refine (hout y i hy).elim (fun hbase => ?_) id
      cases y with
      | nil =>
        obtain rfl : Item.dir = i := Option.some.inj hbase
        exact tame_dir List.not_mem_nil List.not_mem_nil
      | cons name y =>
        rw [Node.layout_child, Node.child?, Node.entries, Entries.get?] at hbase
        split at hbase
        · rename_i hname
          exact hname ▸ tame_inDirectory (inDirectory_create r hbase)
        · cases hbase
  outside x hx := Node.layout_put_of_apart hx _ _

namespace CheckoutCache

variable {place : Location} {d : Depot}

/-- A clone with its submodules changes nothing apart from where its path leads. -/
theorem sameAt_clone (htidy : d.history.Tidy) {url : String} {p : Path}
    (hapart : ∀ l, d.disk.resolve true p = .ok ⟨l, none⟩ → Apart l place) :
    SameAt place d.disk (clone url p d).2.disk := by
  obtain ⟨part, hpart, hlacks⟩ := htidy
  unfold clone
  rw [perform_clone]
  cases d.look url with
  | error e => exact .refl place d.disk
  | ok remote =>
    dsimp only
    cases hr : d.disk.resolve true p with
    | error f => exact .refl place d.disk
    | ok found =>
      obtain ⟨l, n⟩ := found
      cases n with
      | some n => exact .refl place d.disk
      | none =>
        dsimp only
        have hkept := kept_clone hlacks (node_of_resolve hr).symm (ofClone url remote)
        have hbeside :
            IsBeside part l { directory := l ++ [repositoryDirName], files := l } [] [] :=
          ⟨(List.append_nil l).symm, rfl, List.not_mem_nil, List.not_mem_nil, by simp⟩
        have hall := kept_bringInAll hlacks hpart hkept (Or.inl ⟨[], [], hbeside⟩)
        intro r
        rw [← hall.outside (place ++ r) ((hapart l hr).append_right r)]
        split <;> rename_i h <;> rw [h]

theorem perform_pull (refuses : Pull.Step → Bool) (s : Site) (d : Depot) :
    (Depot.pull refuses s).perform d =
      (Depot.changeCopy s (Pull.run
        { history := d.history, look := d.look,
          refuses := fun step => refuses step || d.isLocked s step })).perform d := by
  unfold Depot.pull
  rw [Depot.Action.perform_get_bind]

/-- A pull changes nothing apart from the files of the checkout and from its repository. -/
theorem sameAt_refresh {url : String} {p : Path}
    (hapart : ∀ s, d.siteOf p = .ok s → Apart s.files place ∧ Apart s.directory place)
    (refuses : Pull.Step → Bool) : SameAt place d.disk (refresh refuses url p d).2.disk := by
  unfold refresh
  split
  · exact .refl place d.disk
  · rename_i site hsite
    have hs : d.siteOf p = .ok site := by
      cases hof : d.siteOf p with
      | error e =>
        rw [hof] at hsite
        cases hsite
      | ok s =>
        rw [hof] at hsite
        cases hread : d.read s with
        | error e =>
          rw [show (Except.ok s >>= fun site => (d.read site).map fun _ => site) =
            (d.read s).map fun _ => s from rfl, hread] at hsite
          cases hsite
        | ok r =>
          rw [show (Except.ok s >>= fun site => (d.read site).map fun _ => site) =
            (d.read s).map fun _ => s from rfl, hread] at hsite
          rw [← Except.ok.inj hsite]
    obtain ⟨hfiles, hdir⟩ := hapart site hs
    have hsame : SameAt place d.disk ((Depot.pull refuses site).perform d).2.disk := fun r => by
      rw [perform_pull]
      exact Depot.layout_changeCopy (hfiles.append_right r) (hdir.append_right r) _ d
    cases hpull : (Depot.pull refuses site).perform d with
    | mk outcome d' =>
      rw [hpull] at hsame
      exact hsame

/-- Whether a place is clear of what a fetch may change. -/
structure Clear (c : CheckoutCache) (url : String) (d : Depot) (place : Location) : Prop where
  /-- A checkout that is there has its files and its repository apart from the place. -/
  there : d.disk.exists? (c.path url) = true → ∀ s, d.siteOf (c.path url) = .ok s →
    Apart s.files place ∧ Apart s.directory place
  /-- No directory that is missing on the way to the checkouts would be at the place or below. -/
  root : d.disk.exists? (c.path url) = false → ∀ ps l, ps <+: c.root.parts →
    ((Action.makeDirs c.root).perform d.disk).2.Leads ps l → place <+: l →
      d.disk.top.layout l ≠ none
  /-- A checkout that is missing would be apart from the place. -/
  missing : d.disk.exists? (c.path url) = false → ∀ l,
    ((Action.makeDirs c.root).perform d.disk).2.resolve true (c.path url) = .ok ⟨l, none⟩ →
      Apart l place
  /-- What can be cloned tracks no repositories. -/
  tidy : d.disk.exists? (c.path url) = false → d.history.Tidy

/-- A fetch changes nothing at a place that is clear, or below it. -/
theorem sameAt_fetch {c : CheckoutCache} {url : String} (h : c.Clear url d place)
    (refuses : Pull.Step → Bool) : SameAt place d.disk (c.fetch url d refuses).2.disk := by
  unfold fetch
  dsimp only
  split
  · rename_i hthere
    exact sameAt_refresh (h.there hthere) refuses
  · rename_i hno
    have hno : d.disk.exists? (c.path url) = false := by simpa using hno
    have hroot := h.root hno
    have hmissing := h.missing hno
    have hmakes := Action.makes_makeDirs c.root d.disk
    -- What is new is a directory that was missing on the way to the checkouts.
    have hmade : SameAt place d.disk ((Action.makeDirs c.root).perform d.disk).2 := fun r => by
      by_contra hne
      obtain ⟨-, above, n, hpre, hleads⟩ := hmakes.made _ hne
      exact hne (hmakes.old _ (hroot _ _ hpre hleads (List.prefix_append place r)))
    cases hm : (Action.makeDirs c.root).perform d.disk with
    | mk result disk =>
      rw [hm] at hmade hmissing
      cases result with
      | error f => exact hmade
      | ok _ => exact hmade.trans (sameAt_clone (d := { d with disk }) (h.tidy hno) hmissing)

end CheckoutCache

end Scaffold
