import Mathlib.Data.List.Basic
import Mathlib.Data.List.Pairwise
import Scaffold.Proofs.Repository.WorkingTree

/-!
# What is there after checking out

Checking out a snapshot over an older one puts everything that is tracked at its path and removes
what only the older one tracks; what is apart from both stays (`Snapshot.replaces_checkOut`). This
needs snapshots that are `Regular` : no tracked path is at or below another one, or in the directory
of a repository.

A tree that shows a snapshot has what is tracked at its path, and nothing else outside of the
directory of the repository and of submodules. If a tree shows the older snapshot, then it shows the
newer one after checking out (`Snapshot.shows_checkOut`), by one step for each path that is removed
(`shows_cut`) and one for each that is placed (`shows_place`). There is one way to show a snapshot
(`Shows.layout_eq`).
-/

namespace Scaffold

namespace Disk

open Node

theorem Apart.symm {a b : Location} (h : Apart a b) : Apart b a := ⟨h.2, h.1⟩

instance {α : Type} (f : α → Location) : Std.Symm fun a b => Apart (f a) (f b) :=
  ⟨fun _ _ => Apart.symm⟩

/-- Two locations are apart, or one of them is at or below the other one. -/
theorem apart_or_prefix (a b : Location) : Apart a b ∨ a <+: b ∨ b <+: a := by
  by_cases hab : a <+: b
  · exact Or.inr (Or.inl hab)
  · by_cases hba : b <+: a
    · exact Or.inr (Or.inr hba)
    · exact Or.inl ⟨hab, hba⟩

namespace Node

/-! ## Forcing and removing -/

/-- What was forced in is where it was forced in. -/
theorem at?_force_append (new : Node) : ∀ (l : Location) (n : Node) (r : Location),
    (force new l n).at? (l ++ r) = new.at? r
  | [], _, _ => rfl
  | name :: rest, n, r => by
    rw [List.cons_append, force, at?, child?, entries, Entries.get?_insert, if_pos rfl]
    exact at?_force_append new rest _ r

/-- Forcing something in below a location changes what is there, or puts it into a directory. -/
theorem at?_force_below (new : Node) : ∀ (l r : Location) (n : Node),
    (force new (l ++ r) n).at? l = some (force new r ((n.at? l).getD (.dir [])))
  | [], _, _ => rfl
  | name :: rest, r, n => by
    rw [List.cons_append, force, at?, child?, entries, Entries.get?_insert, if_pos rfl,
      Option.bind_some, at?_force_below new rest r]
    cases hc : n.child? name with
    | some c => rw [Option.getD_some, at?, hc, Option.bind_some]
    | none =>
      rw [Option.getD_none, at?, hc, Option.bind_none]
      cases rest <;> rfl

/-- There are directories above where a node was forced in. -/
theorem layout_force_above {new : Node} {l x : Location} (h : x <+: l) (hne : x ≠ l) (n : Node) :
    (force new l n).layout x = some .dir := by
  obtain ⟨r, rfl⟩ := h
  have hr : r ≠ [] := fun hr => hne (by simp [hr])
  refine layout_of_append hr ?_
  have hat := at?_force_append new (x ++ r) n []
  rw [List.append_nil] at hat
  rw [layout, hat]
  exact Option.some_ne_none _

/-- What is in a directory after something below it was removed. -/
theorem bind_child?_cut {name : String} {n c : Node} (hc : n.child? name = some c)
    (rest : Location) (other : String) :
    (cut (name :: rest) n).bind (child? other) =
      if name = other then cut rest c else n.child? other := by
  have herase : Entries.get? other (Entries.erase name n.entries) =
      if name = other then none else n.child? other := Entries.get?_erase name other n.entries
  rw [cut, hc]
  cases hcut : cut rest c with
  | some c' =>
    simp only [hcut]
    exact Entries.get?_insert name other c' n.entries
  | none =>
    simp only [hcut]
    cases he : Entries.erase name n.entries with
    | nil =>
      rw [he] at herase
      exact herase
    | cons e more =>
      rw [he] at herase
      exact herase

/-- What is apart from what is removed stays as it is. -/
theorem at?_cut_of_apart : ∀ {l x : Location}, Apart l x → ∀ n : Node,
    (cut l n).bind (at? x) = n.at? x
  | [], _, h, _ => (h.1 List.nil_prefix).elim
  | _ :: _, [], h, _ => (h.2 List.nil_prefix).elim
  | name :: rest, other :: x, h, n => by
    cases hc : n.child? name with
    | none =>
      rw [cut, hc]
      rfl
    | some c =>
      change (cut (name :: rest) n).bind (fun m => (m.child? other).bind (at? x)) = _
      rw [← Option.bind_assoc, bind_child?_cut hc rest other, at?]
      split
      · rename_i hname
        subst hname
        rw [hc, at?_cut_of_apart (apart_cons h) c]
        rfl
      · rfl

/-- Nothing is where something was removed. -/
theorem at?_cut_append : ∀ (l : Location) (n : Node) (r : Location),
    (cut l n).bind (at? (l ++ r)) = none
  | [], _, _ => rfl
  | name :: rest, n, r => by
    cases hc : n.child? name with
    | none =>
      rw [cut, hc, List.cons_append, Option.bind_some, at?, hc]
      rfl
    | some c =>
      change (cut (name :: rest) n).bind (fun m => (m.child? name).bind (at? (rest ++ r))) = _
      rw [← Option.bind_assoc, bind_child?_cut hc rest name, if_pos rfl]
      exact at?_cut_append rest c r

/-- A directory that is left when all under a name was removed has something under another one. -/
theorem exists_child?_of_cut {name : String} {rest : Location} {n c n' : Node}
    (hc : n.child? name = some c) (hcut : cut rest c = none)
    (h : cut (name :: rest) n = some n') : ∃ k, name ≠ k ∧ n'.child? k ≠ none := by
  rw [cut, hc] at h
  simp only [hcut] at h
  cases he : Entries.erase name n.entries with
  | nil =>
    rw [he] at h
    cases h
  | cons e more =>
    rw [he] at h
    obtain ⟨k, v⟩ := e
    obtain rfl := Option.some.inj h
    have hget := Entries.get?_erase name k n.entries
    rw [he, Entries.get?, if_pos rfl] at hget
    refine ⟨k, fun hk => ?_, ?_⟩
    · rw [if_pos hk] at hget
      cases hget
    · rw [child?, entries, Entries.get?, if_pos rfl]
      exact Option.some_ne_none v

/-- Where something is left above what was removed, it holds something apart from that. -/
theorem exists_apart_of_cut : ∀ {l x : Location} {n n' : Node}, cut l n = some n' →
    n.at? l ≠ none → x <+: l → n'.at? x ≠ none → ∃ y, x <+: y ∧ Apart l y ∧ n'.at? y ≠ none
  | [], _, _, _, h, _, _, _ => by cases h
  | name :: rest, x, n, n', h, hl, hx, hn' => by
    cases hc : n.child? name with
    | none =>
      rw [at?, hc] at hl
      exact absurd rfl hl
    | some c =>
      rw [at?, hc] at hl
      have hchild : n'.child? name = cut rest c := by
        have hat := bind_child?_cut hc rest name
        rwa [h, if_pos rfl] at hat
      cases hcut : cut rest c with
      | some c' =>
        have hbelow (y : Location) : n'.at? (name :: y) = c'.at? y := by
          rw [at?, hchild, hcut]
          rfl
        have hcons {y : Location} (h : Apart rest y) : Apart (name :: rest) (name :: y) :=
          ⟨fun hp => h.1 (by simpa using hp), fun hp => h.2 (by simpa using hp)⟩
        cases x with
        | nil =>
          obtain ⟨y, -, hy, hne⟩ :=
            exists_apart_of_cut hcut hl List.nil_prefix (Option.some_ne_none c')
          exact ⟨name :: y, List.nil_prefix, hcons hy, by rwa [hbelow]⟩
        | cons first x =>
          obtain ⟨rfl, hpre⟩ := List.cons_prefix_cons.mp hx
          rw [hbelow] at hn'
          obtain ⟨y, hxy, hy, hne⟩ := exists_apart_of_cut hcut hl hpre hn'
          exact ⟨first :: y, by simpa using hxy, hcons hy, by rwa [hbelow]⟩
      | none =>
        cases x with
        | nil =>
          obtain ⟨k, hk, hne⟩ := exists_child?_of_cut hc hcut h
          refine ⟨[k], List.nil_prefix, ⟨fun hp => ?_, fun hp => ?_⟩, fun hat => hne ?_⟩
          · exact hk (List.cons_prefix_cons.mp hp).1
          · exact hk (List.cons_prefix_cons.mp hp).1.symm
          · simpa [at?] using hat
        | cons first x =>
          obtain ⟨rfl, -⟩ := List.cons_prefix_cons.mp hx
          refine absurd ?_ hn'
          rw [at?, hchild, hcut]
          rfl

end Node

end Disk

theorem Entries.has_eq_true {α : Type} {name : String} {t : Entries α} :
    Entries.has name t = true ↔ ∃ e ∈ t, e.1 = name := by
  rw [Entries.has]
  induction t with
  | nil => simp
  | cons e t ih =>
    obtain ⟨k, v⟩ := e
    rw [Entries.get?, List.exists_mem_cons_iff, ← ih]
    split <;> simp_all

theorem Entries.mem_of_get? {α : Type} {name : String} {value : α} : ∀ {t : Entries α},
    get? name t = some value → (name, value) ∈ t
  | (k, v) :: t, h => by
    rw [get?] at h
    split at h
    · rename_i hk
      obtain rfl := Option.some.inj h
      exact hk ▸ List.mem_cons_self
    · exact List.mem_cons_of_mem _ (mem_of_get? h)

namespace Snapshot

open Disk Node

/-! ## Regular snapshots -/

theorem locationOf_ne_nil (path : String) : locationOf path ≠ [] :=
  fun h => Text.pieces_ne_nil '/' path.toList (List.map_eq_nil_iff.mp h)

/-- Whether a snapshot tracks nothing in the directory of a repository, and nothing at or below
something else that is tracked. -/
structure Regular (s : Snapshot) : Prop where
  noRepository : ∀ e ∈ s, repositoryDirName ∉ locationOf e.1
  apart : s.Pairwise fun e e' => Apart (locationOf e.1) (locationOf e'.1)

theorem regular_nil : Regular [] := ⟨nofun, .nil⟩

/-- What is tracked is apart from what else is tracked. -/
theorem Regular.apart_of_ne {s : Snapshot} (h : s.Regular) {e e' : String × Tracked} (he : e ∈ s)
    (he' : e' ∈ s) (hne : e ≠ e') : Apart (locationOf e.1) (locationOf e'.1) :=
  h.apart.forall he he' hne

theorem Regular.apart_of_path_ne {s : Snapshot} (h : s.Regular) {e e' : String × Tracked}
    (he : e ∈ s) (he' : e' ∈ s) (hne : e.1 ≠ e'.1) : Apart (locationOf e.1) (locationOf e'.1) :=
  h.apart_of_ne he he' fun heq => hne (congrArg Prod.fst heq)

theorem apart_repository {path : String} (h : repositoryDirName ∉ locationOf path) (r : Location) :
    Apart (locationOf path) (repositoryDirName :: r) := by
  obtain ⟨first, rest, hl⟩ := List.exists_cons_of_ne_nil (locationOf_ne_nil path)
  rw [hl] at h ⊢
  refine ⟨fun hp => h ?_, fun hp => h ?_⟩
  · exact (List.cons_prefix_cons.mp hp).1 ▸ List.mem_cons_self
  · exact (List.cons_prefix_cons.mp hp).1 ▸ List.mem_cons_self

/-! ## One path -/

/-- The node that is placed for something tracked, if nothing else will do. -/
def leaf : Tracked → Node
  | .file bytes executable => .file bytes executable
  | .link target => .link target
  | .submodule _ => .dir []

theorem item_leaf (t : Tracked) : (leaf t).item = t.item := by cases t <;> rfl

theorem at?_leaf {r : Location} (hr : r ≠ []) (t : Tracked) : (leaf t).at? r = none := by
  obtain ⟨name, r, rfl⟩ := List.exists_cons_of_ne_nil hr
  cases t <;> rfl

/-- What is placed is forced in, or it is a submodule in a directory that is there. -/
theorem place_cases (path : String) (t : Tracked) (n : Node) :
    place path t n = force (leaf t) (locationOf path) n ∨
      place path t n = n ∧ n.layout (locationOf path) = some .dir ∧ ∃ id, t = .submodule id := by
  cases t with
  | file bytes executable => exact Or.inl rfl
  | link target => exact Or.inl rfl
  | submodule id =>
    rw [place]
    split
    · rename_i hdir
      obtain ⟨m, hm, hisDir⟩ := (Option.any_eq_true _ _).mp hdir
      obtain ⟨entries, rfl⟩ := isDir_eq_true.mp hisDir
      exact Or.inr ⟨rfl, layout_eq_dir.mpr ⟨entries, hm⟩, id, rfl⟩
    · exact Or.inl rfl

theorem layout_place_self (path : String) (t : Tracked) (n : Node) :
    (place path t n).layout (locationOf path) = some t.item := by
  rcases place_cases path t n with h | ⟨h, hdir, id, rfl⟩
  · have hat := at?_force_append (leaf t) (locationOf path) n []
    rw [List.append_nil] at hat
    rw [h, layout, hat, at?_nil, Option.map_some, item_leaf]
  · rw [h, hdir]
    rfl

theorem at?_place_of_apart {path : String} {x : Location} (h : Apart (locationOf path) x)
    (t : Tracked) (n : Node) : (place path t n).at? x = n.at? x := by
  rcases place_cases path t n with hp | ⟨hp, -⟩
  · rw [hp, at?_force_of_apart (leaf t) h]
  · rw [hp]

/-- Anything can be what was tracked, but for a directory in place of a file. -/
theorem mayBe_of_item {t : Tracked} {n : Node} {l : Location} {i : Item} (h : n.layout l = some i)
    (hdir : i = .dir → t.item = .dir) : (n.at? l).any (mayBe t) = true := by
  obtain ⟨m, hm, rfl⟩ := layout_eq_some.mp h
  rw [hm, Option.any_some]
  cases t with
  | submodule id => rfl
  | file bytes executable | link target =>
    cases m with
    | file bytes executable | link target => rfl
    | dir entries => cases hdir rfl

/-- What is left when a path is removed : nothing at all counts as an empty directory. -/
theorem at?_getD_cut_of_apart {l x : Location} (h : Apart l x) (n : Node) :
    ((cut l n).getD (.dir [])).at? x = n.at? x := by
  have hcut := at?_cut_of_apart h n
  cases hc : cut l n with
  | some n' =>
    rw [hc] at hcut
    exact hcut
  | none =>
    rw [hc] at hcut
    rw [← hcut]
    obtain ⟨name, x, rfl⟩ := List.exists_cons_of_ne_nil h.ne_nil
    rfl

theorem at?_getD_cut_append {l : Location} (hl : l ≠ []) (n : Node) (r : Location) :
    ((cut l n).getD (.dir [])).at? (l ++ r) = none := by
  have hcut := at?_cut_append l n r
  cases hc : cut l n with
  | some n' =>
    rw [hc] at hcut
    exact hcut
  | none =>
    obtain ⟨name, l, rfl⟩ := List.exists_cons_of_ne_nil hl
    rfl

/-! ## All paths -/

variable {old new : Snapshot} {n : Node}

theorem at?_removeOld_of_apart {x : Location} (new : Snapshot) : ∀ {old : Snapshot},
    (∀ e ∈ old, Apart (locationOf e.1) x) → ∀ n : Node, (removeOld new old n).at? x = n.at? x
  | [], _, _ => rfl
  | (path, t) :: old, h, n => by
    rw [removeOld, at?_removeOld_of_apart new fun e he => h e (List.mem_cons_of_mem _ he)]
    split
    · exact at?_getD_cut_of_apart (h (path, t) List.mem_cons_self) n
    · rfl

theorem at?_placeAll_of_apart {x : Location} : ∀ {s : Snapshot},
    (∀ e ∈ s, Apart (locationOf e.1) x) → ∀ n : Node, (placeAll s n).at? x = n.at? x
  | [], _, _ => rfl
  | (path, t) :: s, h, n => by
    rw [placeAll, at?_placeAll_of_apart fun e he => h e (List.mem_cons_of_mem _ he)]
    exact at?_place_of_apart (h (path, t) List.mem_cons_self) t n

theorem at?_checkOut_of_apart {x : Location}
    (hold : ∀ e ∈ old, Apart (locationOf e.1) x) (hnew : ∀ e ∈ new, Apart (locationOf e.1) x)
    (n : Node) : (checkOut old new n).at? x = n.at? x := by
  rw [checkOut, at?_placeAll_of_apart hnew, at?_removeOld_of_apart new hold]

/-- Checking out changes nothing in the directory of the repository. -/
theorem at?_checkOut_repository (hold : old.Regular) (hnew : new.Regular) (n : Node)
    (r : Location) :
    (checkOut old new n).at? (repositoryDirName :: r) = n.at? (repositoryDirName :: r) :=
  at?_checkOut_of_apart (fun e he => apart_repository (hold.noRepository e he) r)
    (fun e he => apart_repository (hnew.noRepository e he) r) n

/-- Everything that was placed is at its path. -/
theorem layout_placeAll : ∀ {s : Snapshot}, s.Regular → ∀ n : Node, ∀ e ∈ s,
    (placeAll s n).layout (locationOf e.1) = some e.2.item
  | (path, t) :: s, h, n, e, he => by
    have hrest : Regular s :=
      ⟨fun e he => h.noRepository e (List.mem_cons_of_mem _ he), (List.pairwise_cons.mp h.apart).2⟩
    rw [placeAll]
    rcases List.mem_cons.mp he with rfl | he
    · rw [layout, at?_placeAll_of_apart fun e he => ((List.pairwise_cons.mp h.apart).1 e he).symm]
      exact layout_place_self path t n
    · exact layout_placeAll hrest _ e he

/-- What was tracked and is no longer is gone. -/
theorem at?_removeOld : ∀ {old : Snapshot}, old.Regular → ∀ {n : Node}, ∀ e ∈ old,
    Entries.has e.1 new = false → (n.at? (locationOf e.1)).any (mayBe e.2) = true →
      ∀ r, (removeOld new old n).at? (locationOf e.1 ++ r) = none
  | (path, t) :: old, h, n, e, he, hnew, hn, r => by
    have hrest : Regular old :=
      ⟨fun e he => h.noRepository e (List.mem_cons_of_mem _ he), (List.pairwise_cons.mp h.apart).2⟩
    have hapart := (List.pairwise_cons.mp h.apart).1
    rw [removeOld]
    rcases List.mem_cons.mp he with rfl | he
    · rw [at?_removeOld_of_apart new fun e he => (hapart e he).symm.append_right r]
      rw [if_pos (by rw [hnew, hn]; rfl)]
      exact at?_getD_cut_append (locationOf_ne_nil path) n r
    · refine at?_removeOld hrest e he hnew ?_ r
      split
      · rwa [at?_getD_cut_of_apart (hapart e he)]
      · exact hn

/-- Whether a layout is what an older one becomes when a snapshot takes the place of an older one :
what is tracked is at its path, what was tracked and is apart from that is gone unless there is a
directory in place of a file, and what is apart from both is the same. -/
structure Replaces (old new : Snapshot) (t t' : Layout) : Prop where
  tracked : ∀ e ∈ new, t' (locationOf e.1) = some e.2.item
  gone : ∀ e ∈ old, (∀ e' ∈ new, Apart (locationOf e'.1) (locationOf e.1)) →
    ∀ i, t (locationOf e.1) = some i → (i = .dir → e.2.item = .dir) →
      ∀ r, t' (locationOf e.1 ++ r) = none
  rest : ∀ x, (∀ e ∈ old ++ new, Apart (locationOf e.1) x) → t' x = t x

theorem replaces_checkOut (hold : old.Regular) (hnew : new.Regular) (n : Node) :
    Replaces old new n.layout (checkOut old new n).layout where
  tracked := layout_placeAll hnew _
  gone e he hapart i hi hdir r := by
    have hno : Entries.has e.1 new = false := by
      rw [← Bool.not_eq_true, Entries.has_eq_true]
      rintro ⟨e', he', hpath⟩
      exact (hapart e' he').1 (hpath ▸ List.prefix_rfl)
    rw [layout_eq_none, checkOut,
      at?_placeAll_of_apart fun e' he' => (hapart e' he').append_right r]
    exact at?_removeOld hold e he hno (mayBe_of_item hi hdir) r
  rest x hx := by
    rw [layout, at?_checkOut_of_apart (fun e he => hx e (List.mem_append_left _ he))
      (fun e he => hx e (List.mem_append_right _ he))]
    rfl

/-! ## Showing a snapshot -/

/-- Whether a location is neither in the directory of the repository nor inside of a submodule. -/
structure Outside (s : Snapshot) (l : Location) : Prop where
  noRepository : ∀ r, l ≠ repositoryDirName :: r
  noSubmodule : ∀ path id, (path, .submodule id) ∈ s → ∀ r, r ≠ [] → l ≠ locationOf path ++ r

theorem outside_nil (s : Snapshot) : s.Outside [] where
  noRepository := nofun
  noSubmodule path _ _ r _ h :=
    List.append_ne_nil_of_left_ne_nil (locationOf_ne_nil path) r h.symm

/-- Whether a tree has what a snapshot tracks and nothing else, but for what is in the directory of
the repository and inside of submodules. -/
structure Shows (s : Snapshot) (n : Node) : Prop where
  top : n.layout [] = some .dir
  tracked : ∀ e ∈ s, n.layout (locationOf e.1) = some e.2.item
  only : ∀ l, s.Outside l → n.layout l ≠ none → l = [] ∨ ∃ e ∈ s, l <+: locationOf e.1

/-- Trees that show one snapshot have the same outside of submodules. -/
theorem Shows.layout_eq {s : Snapshot} {n m : Node} (hn : s.Shows n) (hm : s.Shows m)
    {l : Location} (hl : s.Outside l) : n.layout l = m.layout l := by
  have habove {n : Node} (hn : s.Shows n) {e : String × Tracked} (he : e ∈ s)
      (hne : l ≠ locationOf e.1) (hpre : l <+: locationOf e.1) : n.layout l = some .dir := by
    obtain ⟨r, hr⟩ := hpre
    refine layout_of_append (fun hnil : r = [] => hne (by rw [← hr, hnil, List.append_nil])) ?_
    rw [hr, hn.tracked e he]
    exact Option.some_ne_none _
  by_cases htracked : l = [] ∨ ∃ e ∈ s, l <+: locationOf e.1
  · rcases htracked with rfl | ⟨e, he, hpre⟩
    · rw [hn.top, hm.top]
    · by_cases heq : l = locationOf e.1
      · rw [heq, hn.tracked e he, hm.tracked e he]
      · rw [habove hn he heq hpre, habove hm he heq hpre]
  · rw [not_not.mp (mt (hn.only l hl) htracked), not_not.mp (mt (hm.only l hl) htracked)]

theorem Shows.congr {s s' : Snapshot} (h : s.Shows n) (heq : ∀ e, e ∈ s' ↔ e ∈ s) : s'.Shows n where
  top := h.top
  tracked e he := h.tracked e ((heq e).mp he)
  only l hl hn := by
    have hout : s.Outside l :=
      ⟨hl.noRepository, fun path id he => hl.noSubmodule path id ((heq _).mpr he)⟩
    exact (h.only l hout hn).imp_right fun ⟨e, he, hpre⟩ => ⟨e, (heq e).mpr he, hpre⟩

/-- A tree with nothing but a repository in it shows a snapshot of nothing. -/
theorem shows_nil (repository : Node) : Shows [] (.dir [(repositoryDirName, repository)]) where
  top := rfl
  tracked := nofun
  only l hl hn := by
    cases l with
    | nil => exact Or.inl rfl
    | cons first l =>
      refine absurd ?_ hn
      rw [layout_child, child?, entries, Entries.get?]
      split
      · rename_i hfirst
        exact (hl.noRepository l (hfirst ▸ rfl)).elim
      · rfl

/-- Where there is something apart from what is tracked at a path, a location above both is above
something else that is tracked. -/
theorem Shows.exists_ne_of_prefix {s : Snapshot} (hs : s.Regular) (h : s.Shows n)
    {e : String × Tracked} (he : e ∈ s) {l y : Location} (hnil : l ≠ [])
    (hrepo : ∀ r, l ≠ repositoryDirName :: r) (hpre : l <+: locationOf e.1) (hly : l <+: y)
    (hy : Apart (locationOf e.1) y) (hn : n.layout y ≠ none) :
    ∃ e' ∈ s, e' ≠ e ∧ l <+: locationOf e'.1 := by
  by_cases hinner : ∃ path id r, (path, Tracked.submodule id) ∈ s ∧ y = locationOf path ++ r
  · obtain ⟨path, id, r, hmem, rfl⟩ := hinner
    have hpath : (path, Tracked.submodule id) ≠ e := by
      rintro rfl
      exact hy.1 (List.prefix_append _ r)
    refine ⟨_, hmem, hpath, ?_⟩
    refine (List.prefix_or_prefix_of_prefix hly (List.prefix_append _ r)).resolve_right fun hp => ?_
    exact (hs.apart_of_ne hmem he hpath).1 (hp.trans hpre)
  · have hout : s.Outside y := by
      refine ⟨fun r hr => ?_, fun path id hmem r _ hr => hinner ⟨path, id, r, hmem, hr⟩⟩
      obtain ⟨first, rest, hfirst⟩ := List.exists_cons_of_ne_nil hnil
      rw [hfirst, hr] at hly
      exact hrepo rest (by rw [hfirst, (List.cons_prefix_cons.mp hly).1])
    rcases h.only y hout hn with rfl | ⟨e', he', hye'⟩
    · exact (hy.2 List.nil_prefix).elim
    · refine ⟨e', he', ?_, hly.trans hye'⟩
      rintro rfl
      exact hy.2 hye'

/-- A tree with a repository shows a snapshot without one of the paths when that is removed. -/
theorem shows_cut {s s' : Snapshot} (hs : s.Regular) (h : s.Shows n)
    (hrepo : n.layout [repositoryDirName] ≠ none) {e : String × Tracked} (he : e ∈ s)
    (hs' : ∀ e', e' ∈ s' ↔ e' ∈ s ∧ e' ≠ e) :
    Shows s' ((cut (locationOf e.1) n).getD (.dir [])) := by
  have hsep := apart_repository (hs.noRepository e he) []
  obtain ⟨n', hcut⟩ : ∃ n', cut (locationOf e.1) n = some n' := by
    cases hc : cut (locationOf e.1) n with
    | some n' => exact ⟨n', rfl⟩
    | none =>
      have hat := at?_cut_of_apart hsep n
      rw [hc] at hat
      exact absurd (layout_eq_none.mpr hat.symm) hrepo
  have hsame {x : Location} (hx : Apart (locationOf e.1) x) : n'.at? x = n.at? x := by
    have hat := at?_cut_of_apart hx n
    rwa [hcut] at hat
  have hnone (r : Location) : n'.at? (locationOf e.1 ++ r) = none := by
    have hat := at?_cut_append (locationOf e.1) n r
    rwa [hcut] at hat
  have hthere : n.layout (locationOf e.1) ≠ none := by
    rw [h.tracked e he]
    exact Option.some_ne_none _
  rw [hcut, Option.getD_some]
  refine ⟨?_, fun e' he' => ?_, fun l hl hn' => ?_⟩
  · refine layout_of_append (l := []) (r := [repositoryDirName]) (List.cons_ne_nil _ _) ?_
    rw [List.nil_append, layout, hsame hsep]
    exact hrepo
  · obtain ⟨hmem, hne⟩ := (hs' e').mp he'
    rw [layout, hsame (hs.apart_of_ne he hmem hne.symm)]
    exact h.tracked e' hmem
  · have hat : n'.at? l ≠ none := fun hat => hn' (layout_eq_none.mpr hat)
    have hbelow : ¬locationOf e.1 <+: l := by
      rintro ⟨r, rfl⟩
      exact hat (hnone r)
    -- What is inside of the submodules that are left is not outside, so it is not asked about.
    have hout : s.Outside l := by
      refine ⟨hl.noRepository, fun path id hmem r hr heq => ?_⟩
      by_cases hpath : (path, Tracked.submodule id) = e
      · exact hbelow ⟨r, by rw [heq, ← hpath]⟩
      · exact hl.noSubmodule path id ((hs' _).mpr ⟨hmem, hpath⟩) r hr heq
    rcases apart_or_prefix (locationOf e.1) l with hapart | hpre | hpre
    · have hold : n.layout l ≠ none := by
        rwa [layout, ← hsame hapart]
      refine (h.only l hout hold).imp_right ?_
      rintro ⟨e', he', hpre⟩
      refine ⟨e', (hs' e').mpr ⟨he', ?_⟩, hpre⟩
      rintro rfl
      exact hapart.2 hpre
    · exact (hbelow hpre).elim
    · by_cases hnil : l = []
      · exact Or.inl hnil
      refine Or.inr ?_
      obtain ⟨y, hly, hy, hne⟩ := exists_apart_of_cut hcut (mt layout_eq_none.mpr hthere) hpre hat
      have hyold : n.layout y ≠ none := by
        rw [Ne, layout_eq_none, ← hsame hy]
        exact hne
      obtain ⟨e', he', hne', hle'⟩ :=
        h.exists_ne_of_prefix hs he hnil hl.noRepository hpre hly hy hyold
      exact ⟨e', (hs' e').mpr ⟨he', hne'⟩, hle'⟩

/-- A tree shows a snapshot with another path when that is placed, apart from the other ones. -/
theorem shows_place {s s' : Snapshot} (h : s.Shows n) {e : String × Tracked}
    (hapart : ∀ e' ∈ s, e'.1 ≠ e.1 → Apart (locationOf e.1) (locationOf e'.1))
    (hs' : ∀ e', e' ∈ s' ↔ e' = e ∨ e' ∈ s ∧ e'.1 ≠ e.1) : Shows s' (place e.1 e.2 n) := by
  refine ⟨?_, fun e' he' => ?_, fun l hl hn' => ?_⟩
  · refine layout_of_append (l := []) (locationOf_ne_nil e.1) ?_
    rw [List.nil_append, layout_place_self]
    exact Option.some_ne_none _
  · rcases (hs' e').mp he' with rfl | ⟨hmem, hne⟩
    · exact layout_place_self _ _ n
    · rw [layout, at?_place_of_apart (hapart e' hmem hne)]
      exact h.tracked e' hmem
  · rcases apart_or_prefix (locationOf e.1) l with hsep | ⟨r, rfl⟩ | hpre
    · have hold : n.layout l ≠ none := by
        rwa [layout, ← at?_place_of_apart hsep e.2]
      have hout : s.Outside l := by
        refine ⟨hl.noRepository, fun path id hmem r hr heq => ?_⟩
        by_cases hpath : path = e.1
        · exact hsep.1 ⟨r, by rw [heq, hpath]⟩
        · exact hl.noSubmodule path id ((hs' _).mpr (Or.inr ⟨hmem, hpath⟩)) r hr heq
      refine (h.only l hout hold).imp_right ?_
      rintro ⟨e', he', hpre⟩
      by_cases hpath : e'.1 = e.1
      · exact (hsep.2 (hpath ▸ hpre)).elim
      · exact ⟨e', (hs' e').mpr (Or.inr ⟨he', hpath⟩), hpre⟩
    · by_cases hr : r = []
      · exact Or.inr ⟨e, (hs' e).mpr (Or.inl rfl), by simp [hr]⟩
      · exfalso
        rcases place_cases e.1 e.2 n with hforce | ⟨-, -, id, hid⟩
        · refine hn' (layout_eq_none.mpr ?_)
          rw [hforce, at?_force_append, at?_leaf hr]
        · exact hl.noSubmodule e.1 id ((hs' _).mpr (Or.inl (Prod.ext rfl hid.symm))) r hr rfl
    · exact Or.inr ⟨e, (hs' e).mpr (Or.inl rfl), hpre⟩

/-- A tree with a repository shows what is still tracked when the rest is removed. -/
theorem shows_removeOld (new : Snapshot) : ∀ {rest done : Snapshot}, (done ++ rest).Regular →
    ∀ {n : Node}, Shows (done ++ rest) n → n.layout [repositoryDirName] ≠ none →
      Shows (done ++ rest.filter fun e => Entries.has e.1 new) (removeOld new rest n)
  | [], _, _, _, h, _ => by simpa [removeOld] using h
  | (path, t) :: rest, done, hs, n, h, hrepo => by
    have hmem : (path, t) ∈ done ++ (path, t) :: rest := by simp
    rw [removeOld, mayBe_of_item (h.tracked (path, t) hmem) id, Bool.and_true, List.filter_cons]
    cases hhas : Entries.has path new with
    | true =>
      have heq : done ++ [(path, t)] ++ rest = done ++ (path, t) :: rest := by simp
      have ih := shows_removeOld new (heq.symm ▸ hs) (heq.symm ▸ h) hrepo
      simpa using ih
    | false =>
      have hsub : (done ++ rest).Sublist (done ++ (path, t) :: rest) :=
        List.Sublist.append_left (List.sublist_cons_self _ rest) done
      have hs' : Regular (done ++ rest) :=
        ⟨fun e he => hs.noRepository e (hsub.subset he), hs.apart.sublist hsub⟩
      have hleft : ∀ e', e' ∈ done ++ rest ↔ e' ∈ done ++ (path, t) :: rest ∧ e' ≠ (path, t) := by
        intro e'
        constructor
        · refine fun he' => ⟨hsub.subset he', ?_⟩
          rintro rfl
          have hpair := hs.apart
          rw [List.pairwise_append, List.pairwise_cons] at hpair
          rcases List.mem_append.mp he' with he' | he'
          · exact (hpair.2.2 _ he' _ List.mem_cons_self).1 List.prefix_rfl
          · exact (hpair.2.1.1 _ he').1 List.prefix_rfl
        · rintro ⟨he', hne⟩
          simpa [hne] using he'
      have hcut := shows_cut hs h hrepo hmem hleft
      have hrepo' : ((cut (locationOf path) n).getD (.dir [])).layout [repositoryDirName] ≠ none := by
        rw [layout, at?_getD_cut_of_apart (apart_repository (hs.noRepository _ hmem) [])]
        exact hrepo
      simpa using shows_removeOld new hs' hcut hrepo'

/-- A tree shows what is placed together with what it shows at other paths. -/
theorem shows_placeAll : ∀ {new s : Snapshot}, new.Regular → ∀ {n : Node}, s.Shows n →
    (∀ e ∈ s, ∀ e' ∈ new, e.1 ≠ e'.1 → Apart (locationOf e'.1) (locationOf e.1)) →
      ∀ {s' : Snapshot}, (∀ e, e ∈ s' ↔ e ∈ new ∨ e ∈ s ∧ ∀ e' ∈ new, e.1 ≠ e'.1) →
        s'.Shows (placeAll new n)
  | [], _, _, _, h, _, _, hs' => h.congr fun e => by simpa using hs' e
  | (path, t) :: new, s, hnew, n, h, hapart, s', hs' => by
    have hrest : Regular new :=
      ⟨fun e he => hnew.noRepository e (List.mem_cons_of_mem _ he),
        (List.pairwise_cons.mp hnew.apart).2⟩
    have hfirst := (List.pairwise_cons.mp hnew.apart).1
    have hne : ∀ e' ∈ new, path ≠ e'.1 := fun e' he' heq =>
      (hfirst e' he').1 (heq ▸ List.prefix_rfl)
    have hplaced : Shows ((path, t) :: s.filter fun e => e.1 ≠ path) (place path t n) :=
      shows_place h (fun e' he' hp => hapart e' he' _ List.mem_cons_self hp) fun e' => by simp
    refine shows_placeAll hrest hplaced (fun e he e' he' hp => ?_) fun e => ?_
    · rcases List.mem_cons.mp he with rfl | he
      · exact (hfirst e' he').symm
      · exact hapart e (List.mem_filter.mp he).1 e' (List.mem_cons_of_mem _ he') hp
    · rw [hs', List.mem_cons, List.mem_cons, List.mem_filter, List.forall_mem_cons]
      constructor
      · rintro ((rfl | he) | ⟨he, hp, hall⟩)
        · exact Or.inr ⟨Or.inl rfl, hne⟩
        · exact Or.inl he
        · exact Or.inr ⟨Or.inr ⟨he, by simpa using hp⟩, hall⟩
      · rintro (he | ⟨rfl | ⟨he, hp⟩, hall⟩)
        · exact Or.inl (Or.inr he)
        · exact Or.inl (Or.inl rfl)
        · exact Or.inr ⟨he, by simpa using hp, hall⟩

/-- A tree with a repository that shows a snapshot shows another one when that is checked out. -/
theorem shows_checkOut (hold : old.Regular) (hnew : new.Regular) (h : old.Shows n)
    (hrepo : n.layout [repositoryDirName] ≠ none) : new.Shows (checkOut old new n) := by
  have hkept : Shows (old.filter fun e => Entries.has e.1 new) (removeOld new old n) :=
    @shows_removeOld new old [] hold n h hrepo
  refine shows_placeAll hnew hkept (fun e he e' he' hp => ?_) fun e => ?_
  · obtain ⟨e'', he'', hpath⟩ := Entries.has_eq_true.mp (List.mem_filter.mp he).2
    exact hpath ▸ hnew.apart_of_path_ne he' he'' fun heq => hp (hpath.symm.trans heq.symm)
  · refine ⟨Or.inl, fun h => h.resolve_right fun ⟨he, hall⟩ => ?_⟩
    obtain ⟨e', he', hpath⟩ := Entries.has_eq_true.mp (List.mem_filter.mp he).2
    exact hall e' he' hpath.symm

end Snapshot

end Scaffold
