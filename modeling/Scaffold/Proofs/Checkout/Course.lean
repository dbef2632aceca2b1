import Scaffold.Proofs.Checkout.Standing
import Scaffold.Proofs.Repository.Creating

/-!
# The course of a checkout

What is fetched from may change in any way between two fetches : it may get more commits, go back to
older ones, be written anew, lose the branch or not be there at all. `Follows` says what one fetch
makes of a checkout then (`exists_follows`). The head moves when what is incoming comes after it,
and the tracked files with it; else they stay.

So over a whole run the head only moves to commits that come after it, and what precedes it still
does so later (`follows_of_course`).
-/

namespace Scaffold

open Scaffold.Path
open Disk Node Repository

/-- What a fetch makes of a checkout with its head at a commit, by the commit that is incoming, which
is none if nothing could be fetched. -/
structure Follows (h : History) (tip? : Option CommitId) (ours : CommitId) (w : WorkingCopy)
    (fetched : Bool) (id : CommitId) (w' : WorkingCopy) : Prop where
  /-- The head and the files move to a commit that comes after the head. -/
  moved : ∀ tip, tip? = some tip → h.IsBehind ours tip → id = tip ∧
    w'.repository.tracked = some tip ∧
      Snapshot.Replaces (w.repository.snapshot h) (h.snapshot tip) w.tree w'.tree
  /-- Otherwise they stay. -/
  stayed : (∀ tip, tip? = some tip → ¬h.IsBehind ours tip) → id = ours ∧
    w'.repository.tracked = w.repository.tracked ∧ w'.tree = w.tree
  failed : fetched = false ↔
    tip? = none ∨ ∃ tip, tip? = some tip ∧ ¬h.Precedes tip ours ∧ ¬h.Precedes ours tip

/-- The head moves to a commit that comes after it, if at all. -/
theorem Follows.precedes {h : History} {tip? : Option CommitId} {ours id : CommitId}
    {w w' : WorkingCopy} {fetched : Bool} (hf : Follows h tip? ours w fetched id w') :
    h.Precedes ours id := by
  by_cases hmoves : ∃ tip, tip? = some tip ∧ h.IsBehind ours tip
  · obtain ⟨tip, htip, hbehind⟩ := hmoves
    exact (hf.moved tip htip hbehind).1 ▸ hbehind.1
  · have hstays := hf.stayed fun tip htip hbehind => hmoves ⟨tip, htip, hbehind⟩
    exact hstays.1 ▸ .refl h ours

namespace CheckoutCache

variable {c : CheckoutCache} {url : String} {d d₀ : Depot} {w : WorkingCopy} {branch : String}
  {ours : CommitId} {refuses : Pull.Step → Bool}

/-! ## One fetch -/

/-- The commit that a fetch of a checkout finds incoming. -/
def incoming? (c : CheckoutCache) (url : String) (d : Depot) (refuses : Pull.Step → Bool)
    (w : WorkingCopy) (branch : String) : Option CommitId :=
  Pull.incoming? (d.surroundings (c.path url) refuses) w.repository branch

/-- Whether every step of a fetch succeeds once it is known what is incoming. -/
def Unhindered (c : CheckoutCache) (url : String) (d : Depot) (refuses : Pull.Step → Bool) : Prop :=
  ∀ step ∉ Pull.Step.reading, d.hinders (c.path url) refuses step = false

theorem Unhindered.not_refused (hgo : c.Unhindered url d refuses) {step : Pull.Step}
    (hstep : step ∉ Pull.Step.reading) :
    ¬(d.surroundings (c.path url) refuses).refuses step = true := by
  rw [show (d.surroundings (c.path url) refuses).refuses step = false from hgo step hstep]
  exact Bool.false_ne_true

theorem Unhindered.not_halfWay (hgo : c.Unhindered url d refuses) :
    ¬((d.surroundings (c.path url) refuses).refuses .moveHead = true ∨
      (d.surroundings (c.path url) refuses).refuses .checkOut = true) :=
  not_or.mpr ⟨hgo.not_refused (by decide), hgo.not_refused (by decide)⟩

/-- A fetch of a checkout succeeds, and the checkout follows what is incoming. -/
theorem exists_follows (h : d.CheckedOut (c.path url) w branch ours) (hreg : d.history.Regular)
    (hgo : c.Unhindered url d refuses) :
    ∃ fetched w' id,
      (c.fetch url d refuses).1.result = .ok { path := c.path url, fetched } ∧
      (c.fetch url d refuses).2.history = d.history ∧
      (c.fetch url d refuses).2.CheckedOut (c.path url) w' branch id ∧
      Follows d.history (c.incoming? url d refuses w branch) ours w fetched id w' := by
  obtain ⟨outcome, w₁, w', id, hcomes, hfetch, hlike, hhistory, hid, hafter⟩ :=
    exists_fetch h.toOpened hreg (Or.inl h.head) refuses
  refine ⟨_, w', id, by rw [hfetch], hhistory,
    ⟨hafter, hlike.head.trans (hcomes.head_eq.trans h.head)⟩, ?_⟩
  -- A pull that moves no branch leaves the head and the files.
  have hstays {r : Repository} (hr : w.repository.Like r) (hw₁ : w₁ = { w with repository := r }) :
      id = ours ∧ w'.repository.tracked = w.repository.tracked ∧ w'.tree = w.tree := by
    subst hw₁
    rw [hr.namedHead?_eq, h.named] at hid
    exact ⟨(Prod.mk.inj (Option.some.inj hid)).2.symm, hlike.tracked.trans hr.tracked, hlike.tree⟩
  generalize hw₁ : w₁ = w₁' at hcomes
  cases hcomes with
  | stopped hwhy hr =>
    have hnone : c.incoming? url d refuses w branch = none := by
      refine hwhy.resolve_right ?_
      rintro (⟨step, hstep, hrefused⟩ | hno)
      · have hlate : ∀ step ∈ Pull.Step.moving, step ∉ Pull.Step.reading := by decide
        exact hgo.not_refused (hlate step hstep) hrefused
      · rw [h.get?_branches] at hno
        cases hno
    rw [hnone]
    exact ⟨nofun, fun _ => hstays hr hw₁, iff_of_true rfl (Or.inl rfl)⟩
  | upToDate htip _ hold hr =>
    rw [show c.incoming? url d refuses w branch = _ from htip]
    refine ⟨?_, fun _ => hstays hr hw₁, iff_of_false nofun ?_⟩
    · rintro tip ⟨⟩ hbehind
      exact (hbehind.2 hold).elim
    · rintro (hnone | ⟨tip, ⟨⟩, hapart, -⟩)
      · cases hnone
      · exact hapart hold
  | @diverged tip r htip _ hapart hr =>
    rw [show c.incoming? url d refuses w branch = _ from htip]
    refine ⟨?_, fun _ => hstays hr hw₁, iff_of_true rfl (Or.inr ⟨tip, rfl, hapart⟩)⟩
    rintro tip ⟨⟩ hbehind
    exact (hapart.2 hbehind.1).elim
  | @fastForwarded tip r htip hbehind _ hr htracked =>
    rw [show c.incoming? url d refuses w branch = _ from htip]
    refine ⟨?_, fun hno => (hno tip rfl hbehind).elim, iff_of_false nofun ?_⟩
    · rintro tip ⟨⟩ -
      subst hw₁
      rw [hr.namedHead?_eq] at hid
      refine ⟨(Prod.mk.inj (Option.some.inj hid)).2.symm, hlike.tracked.trans htracked, ?_⟩
      · rw [hlike.tree]
        exact (Snapshot.replaces_checkOut (hreg.snapshot w.repository) (hreg tip) w.files).work
          (hreg.snapshot w.repository) (hreg tip)
    · rintro (hnone | ⟨tip, ⟨⟩, -, hapart⟩)
      · cases hnone
      · exact hapart hbehind.1
  | halfWay _ _ _ hrefused _ _ => exact (hgo.not_halfWay hrefused).elim

/-! ## Runs -/

/-- What may happen : the checkout of an address is fetched, where only some steps may fail, or
something happens elsewhere. -/
inductive Turn (c : CheckoutCache) (url : String) (may : Depot → (Pull.Step → Bool) → Prop) :
    Depot → Depot → Prop
  | elsewhere {d d' : Depot} : Depot.Elsewhere (c.path url) d d' → Turn c url may d d'
  | fetch {d : Depot} {refuses : Pull.Step → Bool} :
    may d refuses → Turn c url may d (c.fetch url d refuses).2

/-- Over a run of fetches and of what happens elsewhere the head only moves to commits that come
after it, by induction on the run. -/
theorem checkedOut_of_course (h : d₀.CheckedOut (c.path url) w branch ours)
    (hreg : d₀.history.Regular)
    (hrun : Relation.ReflTransGen (c.Turn url (c.Unhindered url)) d₀ d) :
    d₀.history.commits <+: d.history.commits ∧ d.history.Regular ∧
      ∃ w' id, d.CheckedOut (c.path url) w' branch id ∧ d.history.Precedes ours id := by
  induction hrun with
  | refl => exact ⟨List.prefix_rfl, hreg, w, ours, h, .refl _ ours⟩
  | tail _ hturn ih =>
    obtain ⟨hgrow, hreg, w', id, h', hprecedes⟩ := ih
    cases hturn with
    | elsewhere helse =>
      obtain ⟨w'', h'', -⟩ := h'.of_elsewhere helse
      exact ⟨hgrow.trans helse.history, helse.regular hreg, w'', id, h'',
        hprecedes.of_prefix helse.history⟩
    | fetch hgo =>
      obtain ⟨fetched, w'', id', -, hhistory, h'', hfollows⟩ := exists_follows h' hreg hgo
      rw [hhistory]
      exact ⟨hgrow, hreg, w'', id', h'', hprecedes.trans hfollows.precedes⟩

/-- Whatever happens elsewhere between fetches, each fetch of a checkout whose head is on a branch
succeeds and comes to the same path, and the head and the tracked files move when the head is behind
what is incoming, and stay otherwise. The head only moves to commits that come after it, and all
commits that precede it once precede it later. -/
theorem follows_of_course (h : d₀.CheckedOut (c.path url) w branch ours)
    (hreg : d₀.history.Regular)
    (hrun : Relation.ReflTransGen (c.Turn url (c.Unhindered url)) d₀ d)
    (hgo : c.Unhindered url d refuses) :
    ∃ w₁ id₁, d.CheckedOut (c.path url) w₁ branch id₁ ∧ d.history.Precedes ours id₁ ∧
      (∀ older, d₀.history.Precedes older ours → d.history.Precedes older id₁) ∧
      ∃ fetched w₂ id₂,
        (c.fetch url d refuses).1.result = .ok { path := c.path url, fetched } ∧
        (c.fetch url d refuses).2.CheckedOut (c.path url) w₂ branch id₂ ∧
        Follows d.history (c.incoming? url d refuses w₁ branch) id₁ w₁ fetched id₂ w₂ := by
  obtain ⟨hgrow, hreg', w₁, id₁, h₁, hprecedes⟩ := checkedOut_of_course h hreg hrun
  obtain ⟨fetched, w₂, id₂, hresult, -, h₂, hfollows⟩ := exists_follows h₁ hreg' hgo
  exact ⟨w₁, id₁, h₁, hprecedes, fun older hold => (hold.of_prefix hgrow).trans hprecedes, fetched,
    w₂, id₂, hresult, h₂, hfollows⟩

/-! ## A checkout with a remote -/

/-- A repository whose head is on a branch at a commit. -/
def mainAt (id : CommitId) (origin : Option String) : Repository where
  head := some (.branch "main")
  branches := [("main", id)]
  commits := List.range (id + 1)
  origin := origin
  tracked := some id

/-- The files of a checkout of the first commit. -/
def courseFiles : Node :=
  .dir [(".git", Repository.create (mainAt 0 (some "/srv/origin"))),
    ("a.txt", .file "1".toUTF8 false)]

/-- A disk with a checkout at the first of two commits, and what it is fetched from at one of
them. -/
def courseDepot (tip : CommitId) : Depot where
  disk :=
    { top := .dir
        [("cache", .dir [("e8a4999ef45acc2083835ef41eb7cba5", courseFiles)]),
          ("srv", .dir [("origin", .dir [(".git", Repository.create (mainAt tip none))])])] }
  history :=
    { commits :=
        [{ snapshot := [("a.txt", .file "1".toUTF8 false)], parents := [], message := "one" },
          { snapshot := [("a.txt", .file "2".toUTF8 false)], parents := [0], message := "two" }] }

/-- Where the checkouts are in the samples. -/
def sampleCache : CheckoutCache := ⟨⟨"/cache"⟩⟩

theorem path_sampleCache :
    sampleCache.path "/srv/origin" = ⟨"/cache/e8a4999ef45acc2083835ef41eb7cba5"⟩ := by
  decide +kernel

theorem reaches_courseDepot (tip : CommitId) :
    (courseDepot tip).disk.Reaches (sampleCache.path "/srv/origin")
      ["cache", "e8a4999ef45acc2083835ef41eb7cba5"] := by
  have hsteps : stepsOf "/cache/e8a4999ef45acc2083835ef41eb7cba5" =
      (true, [.name "cache", .name "e8a4999ef45acc2083835ef41eb7cba5"]) := by decide +kernel
  rw [path_sampleCache, Reaches, resolve, if_neg (by decide +kernel), hsteps]
  rfl

theorem at?_courseDepot (tip : CommitId) :
    (courseDepot tip).disk.top.at? ["cache", "e8a4999ef45acc2083835ef41eb7cba5"] =
      some courseFiles := rfl

theorem regular_courseDepot (tip : CommitId) : (courseDepot tip).history.Regular := by
  have hpath : repositoryDirName ∉ Snapshot.locationOf "a.txt" := by decide +kernel
  have hone (bytes : ByteArray) : Snapshot.Regular [("a.txt", .file bytes false)] :=
    ⟨fun e he => List.mem_singleton.mp he ▸ hpath, List.pairwise_singleton _ _⟩
  intro id
  match id with
  | 0 | 1 => exact hone _
  | _ + 2 => exact Snapshot.regular_nil

theorem checkedOut_courseDepot (tip : CommitId) : ∃ w,
    (courseDepot tip).CheckedOut (sampleCache.path "/srv/origin") w "main" 0 ∧
      w.files = courseFiles ∧ w.repository.origin = some "/srv/origin" ∧
      w.repository.tracked = some 0 := by
  obtain ⟨hbranches, -, r, hread, hrhead, hrorigin, hrtracked, hrnamed⟩ :=
    restored_create (h := (courseDepot tip).history) (r := mainAt 0 (some "/srv/origin")) rfl rfl rfl
      Nat.two_pos (by decide +kernel) (by decide +kernel)
  exact ⟨⟨r, _⟩, ⟨⟨⟨⟨_, reaches_courseDepot tip, at?_courseDepot tip⟩,
    ⟨_, rfl, hbranches, hread⟩⟩, hrnamed⟩, hrhead⟩, rfl, hrorigin, hrtracked⟩

theorem isBehind_courseDepot : (courseDepot 1).history.IsBehind 0 1 := by
  refine ⟨History.isAncestor_iff.mp (by decide +kernel), fun hback => ?_⟩
  have hno : (courseDepot 1).history.isAncestor 1 0 = false := by decide +kernel
  rw [History.isAncestor_iff.mpr hback] at hno
  cases hno

/-- A commit is added to what is fetched from. -/
theorem elsewhere_courseDepot :
    Depot.Elsewhere (sampleCache.path "/srv/origin") (courseDepot 0) (courseDepot 1) where
  history := List.prefix_rfl
  regular _ := regular_courseDepot 1
  place l entries hl hentries := by
    have hstat := (reaches_courseDepot 0).stat (at?_courseDepot 0)
    obtain ⟨rfl, -⟩ := Prod.mk.inj (Except.ok.inj (hstat.symm.trans (hl.stat hentries)))
    exact ⟨reaches_courseDepot 1,
      (at?_courseDepot 1).trans ((at?_courseDepot 0).symm.trans hentries)⟩

theorem unhindered_courseDepot :
    sampleCache.Unhindered "/srv/origin" (courseDepot 1) fun _ => false := by
  have hnone : ∀ step ∈ Pull.Step.all, (courseDepot 1).hinders
      ⟨"/cache/e8a4999ef45acc2083835ef41eb7cba5"⟩ (fun _ => false) step = false := by decide +kernel
  intro step _
  rw [path_sampleCache]
  exact hnone step step.mem_all

/-- A checkout is fetched after a commit was added. -/
theorem follows_courseDepot : ∃ w,
    (courseDepot 0).CheckedOut (sampleCache.path "/srv/origin") w "main" 0 ∧
      (courseDepot 0).history.Regular ∧
      Relation.ReflTransGen (sampleCache.Turn "/srv/origin" (sampleCache.Unhindered "/srv/origin"))
        (courseDepot 0) (courseDepot 1) ∧
      sampleCache.Unhindered "/srv/origin" (courseDepot 1) (fun _ => false) ∧
      (sampleCache.fetch "/srv/origin" (courseDepot 1)).1.result =
        .ok { path := sampleCache.path "/srv/origin", fetched := true } ∧
      ∃ w', (sampleCache.fetch "/srv/origin" (courseDepot 1)).2.CheckedOut
          (sampleCache.path "/srv/origin") w' "main" 1 ∧
        w'.tree ["a.txt"] = some (.file "2".toUTF8 false) := by
  obtain ⟨w, hw, -⟩ := checkedOut_courseDepot 0
  have hrun : Relation.ReflTransGen
      (sampleCache.Turn "/srv/origin" (sampleCache.Unhindered "/srv/origin"))
      (courseDepot 0) (courseDepot 1) := .single (.elsewhere elsewhere_courseDepot)
  refine ⟨w, hw, regular_courseDepot 0, hrun, unhindered_courseDepot, ?_⟩
  obtain ⟨w₁, id₁, h₁, -, -, fetched, w₂, id₂, hresult, h₂, hfollows⟩ :=
    follows_of_course hw (regular_courseDepot 0) hrun unhindered_courseDepot
  obtain ⟨w', hw', -, horigin, -⟩ := checkedOut_courseDepot 1
  obtain ⟨rfl, -, rfl⟩ := hw'.eq h₁
  have htip : sampleCache.incoming? "/srv/origin" (courseDepot 1) (fun _ => false) w₁ "main" =
      some 1 := by
    rw [incoming?, path_sampleCache, Pull.incoming?, horigin]
    decide +kernel
  have hbehind := isBehind_courseDepot
  obtain ⟨rfl, -, hfiles⟩ := hfollows.moved 1 htip hbehind
  have hfetched : fetched = true := by
    by_contra hne
    rcases hfollows.failed.mp (by simpa using hne) with hnone | ⟨tip, hsome, -, hapart⟩
    · rw [htip] at hnone
      cases hnone
    · obtain rfl := Option.some.inj (htip.symm.trans hsome)
      exact hapart hbehind.1
  refine ⟨hfetched ▸ hresult, w₂, h₂, ?_⟩
  exact hfiles.tracked ("a.txt", .file "2".toUTF8 false) List.mem_cons_self

end CheckoutCache

end Scaffold
