import Scaffold.Proofs.Checkout.Standing

/-!
# Submodules inside of each other

A snapshot says which submodules it has, by the settings that it tracks (`Snapshot.submodules?`),
and each of them is at a commit of the same history. So a commit has submodules on paths that go from
one to the next (`History.Nests`), and there may be no end to them, since a repository may be inside
of itself. `History.nestings` lists those of some length at most, depth first
(`History.mem_nestings`).

In a snapshot that is `Snapshot.Modular` the submodules are beside each other : their paths and the
names of their repositories are apart (`Snapshot.Modular.pairwise`).
-/

namespace Scaffold

open Scaffold.Path
open Disk Repository Submodule

/-! ## The submodules of a snapshot -/

/-- The submodules that a snapshot has, if its settings can be read. -/
def Snapshot.submodules? (s : Snapshot) : Option (List Submodule) :=
  match Entries.get? settingsName s with
  | some (.file bytes _) => ((String.fromUTF8? bytes).bind Settings.ofText).map (all · s)
  | some _ => none
  | none =>
    if s.any fun e => (locationOf e.1).head? == some settingsName then none else some (all [] s)

/-- Whether a submodule is tracked and has an address, so that it can be brought in. -/
def Submodule.IsKnown (sub : Submodule) : Prop := sub.commit ≠ none ∧ sub.url ≠ none

instance (sub : Submodule) : Decidable sub.IsKnown := inferInstanceAs (Decidable (_ ∧ _))

/-- Whether submodules are beside each other : their files if they are tracked, and their
repositories if they can be brought in. -/
structure Submodule.Beside (a b : Submodule) : Prop where
  paths : a.commit ≠ none → b.commit ≠ none →
    Apart (Snapshot.locationOf a.path) (Snapshot.locationOf b.path)
  names : a.IsKnown → b.IsKnown → Apart (Snapshot.locationOf a.name) (Snapshot.locationOf b.name)

/-- Whether a submodule fits into a snapshot : it is tracked there where it has a commit, and its names
are proper ones. -/
structure Submodule.Fits (part : String) (s : Snapshot) (sub : Submodule) : Prop where
  tracked : ∀ id, sub.commit = some id → (sub.path, .submodule id) ∈ s
  noRepository : repositoryDirName ∉ Snapshot.locationOf sub.path
  noPart : sub.commit ≠ none → part ∉ Snapshot.locationOf sub.path
  names : sub.IsKnown → ∀ n ∈ Snapshot.locationOf sub.name, IsName n ∧ '\n' ∉ n.toList
  untracked : sub.commit = none → ∀ path id, (path, .submodule id) ∈ s →
    ¬Snapshot.locationOf path <+: Snapshot.locationOf sub.path

/-- Whether a snapshot has its submodules beside each other : its settings are no link, the names of
those that can be brought in are proper and apart, and one that is not tracked is not in the
repository and not inside of one that is. -/
structure Snapshot.Modular (s : Snapshot) : Prop where
  noLink : ∀ target, (settingsName, .link target) ∉ s
  names : ∀ subs, s.submodules? = some subs → ∀ sub ∈ subs, sub.IsKnown →
    ∀ n ∈ locationOf sub.name, IsName n ∧ '\n' ∉ n.toList
  apart : ∀ subs, s.submodules? = some subs → subs.Pairwise fun a b =>
    a.IsKnown → b.IsKnown → Apart (locationOf a.name) (locationOf b.name)
  untracked : ∀ subs, s.submodules? = some subs → ∀ sub ∈ subs, sub.commit = none →
    repositoryDirName ∉ locationOf sub.path ∧
      ∀ path id, (path, .submodule id) ∈ s → ¬locationOf path <+: locationOf sub.path

/-- Whether all snapshots of a history are so. -/
def History.Modular (h : History) : Prop := ∀ id, (h.snapshot id).Modular

namespace Snapshot

variable {s : Snapshot} {subs : List Submodule} {part : String}

theorem exists_all_of_submodules? (h : s.submodules? = some subs) :
    ∃ settings, subs = all settings s := by
  unfold submodules? at h
  split at h
  · obtain ⟨settings, -, rfl⟩ := Option.map_eq_some_iff.mp h
    exact ⟨settings, rfl⟩
  · cases h
  · split at h
    · cases h
    · exact ⟨[], (Option.some.inj h).symm⟩

/-- The submodules are in the order of their paths. -/
theorem pairwise_path_all (settings : Entries String) (s : Snapshot) :
    ((all settings s).map Submodule.path).Pairwise (· < ·) := by
  have hstart : ((Entries.ofPairs ((ofSettings settings).map fun sub => (sub.path, sub))).map
      Prod.fst).Pairwise (· < ·) :=
    List.foldlRecOn _ _ (motive := fun t : Entries Submodule => (t.map Prod.fst).Pairwise (· < ·))
      .nil fun t ht e _ => Entries.pairwise_insert e.1 e.2 ht
  have hkeys {t : Entries Submodule}
      (ht : AllOf settings s t ∧ (t.map Prod.fst).Pairwise (· < ·)) :
      (t.map (Submodule.path ∘ Prod.snd)).Pairwise (· < ·) := by
    have hsame : t.map (Submodule.path ∘ Prod.snd) = t.map Prod.fst :=
      List.map_congr_left fun e he => (ht.1 e he).1
    rw [hsame]
    exact ht.2
  rw [all, List.map_map]
  refine hkeys (List.foldlRecOn s _
    (motive := fun t => AllOf settings s t ∧ (t.map Prod.fst).Pairwise (· < ·))
    ⟨allOf_ofSettings, hstart⟩ fun t ht e he => ?_)
  obtain ⟨path, tracked⟩ := e
  cases tracked with
  | submodule commit => exact ⟨ht.1.track he, Entries.pairwise_insert _ _ ht.2⟩
  | file bytes executable | link target => exact ht

theorem submodules?_nil : submodules? [] = some [] := rfl

theorem modular_nil : Modular [] where
  noLink := nofun
  names subs hsubs := by
    obtain rfl := Option.some.inj (submodules?_nil.symm.trans hsubs)
    nofun
  apart subs hsubs := by
    obtain rfl := Option.some.inj (submodules?_nil.symm.trans hsubs)
    exact .nil
  untracked subs hsubs := by
    obtain rfl := Option.some.inj (submodules?_nil.symm.trans hsubs)
    nofun

/-- The submodules of a modular snapshot fit into it. -/
theorem Modular.fits (h : s.Modular) (hlacks : ∀ e ∈ s, Lacks part e)
    (hsubs : s.submodules? = some subs) {sub : Submodule} (hsub : sub ∈ subs) : sub.Fits part s := by
  have htracked : ∀ id, sub.commit = some id → (sub.path, .submodule id) ∈ s := by
    obtain ⟨settings, rfl⟩ := exists_all_of_submodules? hsubs
    exact (isOf_of_mem_all sub hsub).tracked
  refine ⟨htracked, ?_, fun hcommit => ?_, h.names subs hsubs sub hsub, fun hnone =>
    (h.untracked subs hsubs sub hsub hnone).2⟩
  · cases hcommit : sub.commit with
    | none => exact (h.untracked subs hsubs sub hsub hcommit).1
    | some id => exact (hlacks _ (htracked id hcommit)).noRepository
  · obtain ⟨id, hid⟩ := Option.ne_none_iff_exists'.mp hcommit
    exact (hlacks _ (htracked id hid)).noPart

/-- The submodules of a modular snapshot are beside each other. -/
theorem Modular.pairwise (h : s.Modular) (hs : s.Regular) (hsubs : s.submodules? = some subs) :
    subs.Pairwise Submodule.Beside := by
  have hpaths : subs.Pairwise fun a b => a.commit ≠ none → b.commit ≠ none →
      Apart (locationOf a.path) (locationOf b.path) := by
    obtain ⟨settings, rfl⟩ := exists_all_of_submodules? hsubs
    refine (List.pairwise_map.mp (pairwise_path_all settings s)).imp_of_mem ?_
    intro a b ha hb hlt hacommit hbcommit
    obtain ⟨_, hid⟩ := Option.ne_none_iff_exists'.mp hacommit
    obtain ⟨_, hid'⟩ := Option.ne_none_iff_exists'.mp hbcommit
    exact hs.apart_of_path_ne ((isOf_of_mem_all a ha).tracked _ hid)
      ((isOf_of_mem_all b hb).tracked _ hid') hlt.ne
  exact (hpaths.and (h.apart subs hsubs)).imp fun hab => ⟨hab.1, hab.2⟩

end Snapshot

/-! ## Nesting -/

namespace History

/-- What a commit tracks, if there is one. -/
def snapshotOf (h : History) (commit : Option CommitId) : Snapshot := commit.elim [] h.snapshot

/-- The submodules of a commit, if its settings can be read. -/
def submodules? (h : History) (commit : Option CommitId) : Option (List Submodule) :=
  (h.snapshotOf commit).submodules?

/-- The submodules of a commit on paths of some length at most, each before those inside of it. -/
def nestings (h : History) : Nat → Option CommitId → List (List Submodule)
  | 0, _ => []
  | depth + 1, commit => ((h.submodules? commit).getD []).flatMap fun sub =>
      [sub] :: (nestings h depth sub.commit).map (sub :: ·)

/-- Whether each submodule of a path is in the one before it, and the first one in a commit. -/
def Nests (h : History) : Option CommitId → List Submodule → Prop
  | _, [] => True
  | commit, sub :: path => sub ∈ (h.submodules? commit).getD [] ∧ Nests h sub.commit path

section

variable {h : History} {part : String} (commit : Option CommitId)

theorem Regular.snapshotOf (hreg : h.Regular) : (h.snapshotOf commit).Regular := by
  cases commit with
  | none => exact Snapshot.regular_nil
  | some id => exact hreg id

theorem Modular.snapshotOf (hmod : h.Modular) : (h.snapshotOf commit).Modular := by
  cases commit with
  | none => exact Snapshot.modular_nil
  | some id => exact hmod id

theorem Lacks.snapshotOf (hlacks : h.Lacks part) : ∀ e ∈ h.snapshotOf commit,
    Snapshot.Lacks part e := by
  cases commit with
  | none => nofun
  | some id => exact hlacks id

end

theorem cons_mem_nestings {h : History} {depth : Nat} {commit : Option CommitId} {sub : Submodule}
    {path : List Submodule} : sub :: path ∈ h.nestings (depth + 1) commit ↔
      sub ∈ (h.submodules? commit).getD [] ∧ (path = [] ∨ path ∈ h.nestings depth sub.commit) := by
  rw [nestings, List.mem_flatMap]
  constructor
  · rintro ⟨first, hfirst, hmem⟩
    rcases List.mem_cons.mp hmem with heq | hmem
    · obtain ⟨rfl, rfl⟩ := List.cons.inj heq
      exact ⟨hfirst, Or.inl rfl⟩
    · obtain ⟨rest, hrest, heq⟩ := List.mem_map.mp hmem
      obtain ⟨rfl, rfl⟩ := List.cons.inj heq
      exact ⟨hfirst, Or.inr hrest⟩
  · rintro ⟨hsub, rfl | hpath⟩
    · exact ⟨sub, hsub, List.mem_cons_self⟩
    · exact ⟨sub, hsub, List.mem_cons_of_mem _ (List.mem_map_of_mem hpath)⟩

theorem nil_not_mem_nestings {h : History} {depth : Nat} {commit : Option CommitId} :
    [] ∉ h.nestings depth commit := by
  cases depth with
  | zero => exact List.not_mem_nil
  | succ depth => simp [nestings]

/-- The paths up to a length are listed, by induction on it. -/
theorem mem_nestings {h : History} : ∀ {depth : Nat} {commit : Option CommitId}
    {path : List Submodule}, path ∈ h.nestings depth commit ↔
      h.Nests commit path ∧ path ≠ [] ∧ path.length ≤ depth
  | depth, commit, [] => iff_of_false nil_not_mem_nestings fun hpath => hpath.2.1 rfl
  | 0, commit, sub :: path => iff_of_false List.not_mem_nil fun hpath => by
    simpa using hpath.2.2
  | depth + 1, commit, sub :: path => by
    rw [cons_mem_nestings, @mem_nestings h depth, Nests, List.length_cons,
      Nat.add_le_add_iff_right]
    constructor
    · rintro ⟨hsub, rfl | ⟨hpath, -, hlength⟩⟩
      · exact ⟨⟨hsub, trivial⟩, List.cons_ne_nil _ _, Nat.zero_le depth⟩
      · exact ⟨⟨hsub, hpath⟩, List.cons_ne_nil _ _, hlength⟩
    · rintro ⟨⟨hsub, hpath⟩, -, hlength⟩
      exact ⟨hsub, (eq_or_ne path []).imp_right fun hne => ⟨hpath, hne, hlength⟩⟩

end History

end Scaffold
