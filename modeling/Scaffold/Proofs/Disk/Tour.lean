import Scaffold.Proofs.Disk.Proper
import Mathlib.Data.Finset.Card

/-!
# Tours

A walk is counted out : it follows at most as many links on one way as there are directories.
A `Tour` does without the count. It has a list of stops that are still to come, goes to the
first of them, and puts what is within it in front of the others ; each stop is looked at on its
own, and nothing but an empty list ends the tour. A walk is a tour (`tour_walkFrom`), so a tour
comes to an end on every disk, however its links lead, and the count of a walk never runs out.

What a stop leads into is not a directory that the stop is in. So the directories that the stops
are not in get fewer with each link on a way (`unentered`), whereas a directory may be come to
any number of times on different ways.
-/

set_option linter.unusedSectionVars false

namespace Scaffold

open Scaffold.Path

namespace Disk

/-! ## The directories of a tree -/

namespace Node

mutual

/-- The locations of the directories of a tree. -/
def dirs : Node → List Location
  | .dir entries => [] :: dirsIn entries
  | _ => []

/-- The locations of the directories in some entries. -/
def dirsIn : List (String × Node) → List Location
  | [] => []
  | (name, n) :: rest => (dirs n).map (name :: ·) ++ dirsIn rest

end

mutual

theorem length_dirs : ∀ n : Node, n.dirs.length = n.dirCount
  | .file .. => rfl
  | .link _ => rfl
  | .dir entries => by
    rw [dirs, dirCount, List.length_cons, length_dirsIn, Nat.add_comm]

theorem length_dirsIn : ∀ entries : List (String × Node),
    (dirsIn entries).length = dirCountIn entries
  | [] => rfl
  | (name, n) :: rest => by
    rw [dirsIn, dirCountIn, List.length_append, List.length_map, length_dirs, length_dirsIn]

end

theorem mem_dirsIn {name : String} {c : Node} {l : Location} (hl : l ∈ c.dirs) :
    ∀ {entries : List (String × Node)}, Entries.get? name entries = some c →
      name :: l ∈ dirsIn entries
  | (other, n) :: rest, h => by
    rw [Entries.get?] at h
    rw [dirsIn, List.mem_append]
    split at h
    · rename_i hname
      obtain rfl := Option.some.inj h
      exact Or.inl (hname ▸ List.mem_map_of_mem hl)
    · exact Or.inr (mem_dirsIn hl h)

theorem mem_dirs {n : Node} {l : Location} (h : n.layout l = some .dir) : l ∈ n.dirs := by
  induction l generalizing n with
  | nil =>
    obtain ⟨entries, he⟩ := layout_eq_dir.mp h
    obtain rfl := Option.some.inj he
    exact List.mem_cons_self
  | cons name l ih =>
    rw [layout_child, Option.bind_eq_some_iff] at h
    obtain ⟨c, hc, hl⟩ := h
    cases n with
    | file bytes executable => cases hc
    | link target => cases hc
    | dir entries => exact List.mem_cons_of_mem _ (mem_dirsIn (ih hl) hc)

end Node

/-- The directories of a tree that a walk is not in. -/
def unentered (top : Node) (inside : Inside) : Finset Location :=
  top.dirs.toFinset \ (inside.map Prod.fst).toFinset

theorem card_unentered_nil (top : Node) : (unentered top []).card ≤ top.dirCount := by
  rw [← Node.length_dirs, unentered, List.map_nil, List.toFinset_nil, Finset.sdiff_empty]
  exact List.toFinset_card_le _

theorem card_unentered_cons_le (top : Node) (a : Location × Path) (inside : Inside) :
    (unentered top (a :: inside)).card ≤ (unentered top inside).card := by
  refine Finset.card_le_card fun l hl => ?_
  simp only [unentered, List.map_cons, List.toFinset_cons, Finset.mem_sdiff, Finset.mem_insert,
    not_or] at hl ⊢
  exact ⟨hl.1, hl.2.2⟩

/-- A walk that goes into one more directory is outside of one less. -/
theorem card_unentered_cons_lt {top : Node} {l : Location} (hl : top.layout l = some .dir)
    {inside : Inside} (hout : l ∉ inside.map Prod.fst) (path : Path) :
    (unentered top ((l, path) :: inside)).card < (unentered top inside).card := by
  have hmem : l ∈ unentered top inside := by
    simp only [unentered, Finset.mem_sdiff, List.mem_toFinset]
    exact ⟨Node.mem_dirs hl, hout⟩
  refine Finset.card_lt_card (Finset.ssubset_iff_subset_ne.mpr ⟨fun m hm => ?_, fun heq => ?_⟩)
  · simp only [unentered, List.map_cons, List.toFinset_cons, Finset.mem_sdiff, Finset.mem_insert,
      not_or] at hm ⊢
    exact ⟨hm.1, hm.2.2⟩
  · rw [← heq] at hmem
    simp [unentered] at hmem

/-! ## Stops -/

/-- Something that a walk is still to come to : the directories that it is in by then, and the
names, the location and the path that lead there. -/
structure Stop where
  inside : Inside
  names : List String
  location : Location
  path : Path

/-- The stops for the entries of a directory. -/
def stopsIn (inside : Inside) (names : List String) (location : Location) (path : Path)
    (entries : List (String × Node)) : List Stop :=
  entries.map fun e => ⟨inside, names ++ [e.1], location ++ [e.1], path.join e.1⟩

namespace Stop

/-- The stops within a directory that a stop leads to. -/
def within (s : Stop) (l : Location) (entries : List (String × Node)) : List Stop :=
  stopsIn ((l, s.path) :: s.inside) s.names l s.path entries

/-- What a walk does at a stop, as the disk is then : what it comes by, and the stops within.
Nothing is said about what is to come after that. -/
def visit (s : Stop) (d : Disk) : Except Fault (Visit × List Stop) :=
  match d.top.at? s.location with
  | none => .error (.walking s.path.text .notFound)
  | some (.file ..) => .ok (⟨s.names, false⟩, [])
  | some (.dir entries) => .ok (⟨s.names, true⟩, s.within s.location entries)
  | some (.link _) =>
    match d.stat s.path with
    | .error f => .error (.walking s.path.text f)
    | .ok (l, n) =>
      if n.isDir then
        match s.inside.find? (·.1 == l) with
        | some ancestor => .error (.cycle s.path.text ancestor.2.text)
        | none => .ok (⟨s.names, true⟩, s.within l n.entries)
      else .ok (⟨s.names, false⟩, [])

end Stop

/-- What a walk comes by from some stops to the end, where the stops within a stop come before
the others. -/
inductive Tour (d : Disk) : List Stop → List (Except Fault Visit) → Prop
  | done : Tour d [] []
  | fault {s : Stop} {f : Fault} {rest : List Stop} {vs : List (Except Fault Visit)} :
    s.visit d = .error f → Tour d rest vs → Tour d (s :: rest) (.error f :: vs)
  | visit {s : Stop} {v : Visit} {within rest : List Stop} {vs : List (Except Fault Visit)} :
    s.visit d = .ok (v, within) → Tour d (within ++ rest) vs → Tour d (s :: rest) (.ok v :: vs)

variable {d : Disk}

theorem Tour.append {stops more : List Stop} {vs ws : List (Except Fault Visit)}
    (h : Tour d stops vs) (h' : Tour d more ws) : Tour d (stops ++ more) (vs ++ ws) := by
  induction h with
  | done => exact h'
  | fault hs _ ih => exact .fault hs ih
  | visit hs _ ih =>
    rw [List.append_assoc] at ih
    exact .visit hs ih

/-- One stop that is visited, with what is within. -/
theorem Tour.single {s : Stop} {v : Visit} {within : List Stop} {vs : List (Except Fault Visit)}
    (hs : s.visit d = .ok (v, within)) (h : Tour d within vs) : Tour d [s] (.ok v :: vs) :=
  .visit hs (by rwa [List.append_nil])

/-! ## A walk is a tour -/

section

variable {enter : Enter} {links : Nat} (hd : d.top.Proper)
  (henter : ∀ (inside : Inside) (names : List String) (l : Location) (path : Path)
    (entries : List (String × Node)), (unentered d.top inside).card ≤ links →
    l ∉ inside.map Prod.fst → d.top.at? l = some (.dir entries) →
    ∃ vs, enter inside names l path (.dir entries) = .ok ⟨names, true⟩ :: vs ∧
      Tour d (stopsIn ((l, path) :: inside) names l path entries) vs)

include hd henter

mutual

/-- A walk through a node is a tour, when going through a link is one. -/
theorem tour_visitNode : ∀ (n : Node) (inside : Inside) (names : List String)
    (location : Location) (path : Path), (unentered d.top inside).card ≤ links →
      d.top.at? location = some n →
      Tour d [⟨inside, names, location, path⟩] (visitNode d enter inside names location path n)
  | .file bytes executable, inside, names, location, path, _, hn => by
    rw [visitNode]
    exact .single (by rw [Stop.visit, hn]) .done
  | .dir entries, inside, names, location, path, hlinks, hn => by
    rw [visitNode]
    refine .single (by rw [Stop.visit, hn]) ?_
    exact tour_visitEntries entries _ names location path
      ((card_unentered_cons_le ..).trans hlinks) fun e he => (hd.mem_entries hn he).2
  | .link target, inside, names, location, path, hlinks, hn => by
    rw [visitNode]
    split
    · rename_i f hstat
      exact .fault (by simp only [Stop.visit, hn, hstat]) .done
    · rename_i l n hstat
      split
      · rename_i hdir
        obtain ⟨entries, rfl⟩ := Node.isDir_eq_true.mp hdir
        split
        · rename_i ancestor hfind
          refine .fault ?_ .done
          simp only [Stop.visit, hn, hstat, hdir, if_true, hfind]
        · rename_i hfind
          have hout : l ∉ inside.map Prod.fst := by
            intro hl
            obtain ⟨a, ha, rfl⟩ := List.mem_map.mp hl
            have hne := List.find?_eq_none.mp hfind a ha
            simp at hne
          obtain ⟨vs, hvs, htour⟩ := henter inside names l path entries hlinks hout
            (at?_of_stat hstat)
          rw [hvs]
          refine .single ?_ htour
          simp only [Stop.visit, hn, hstat, hdir, if_true, hfind]
          rfl
      · rename_i hdir
        have hvisit : Stop.visit ⟨inside, names, location, path⟩ d = .ok (⟨names, false⟩, []) := by
          simp only [Stop.visit, hn, hstat, hdir]
          rfl
        exact .single hvisit .done

theorem tour_visitEntries : ∀ (entries : List (String × Node)) (inside : Inside)
    (names : List String) (location : Location) (path : Path),
      (unentered d.top inside).card ≤ links →
      (∀ e ∈ entries, d.top.at? (location ++ [e.1]) = some e.2) →
      Tour d (stopsIn inside names location path entries)
        (visitEntries d enter inside names location path entries)
  | [], inside, names, location, path, _, _ => by
    rw [visitEntries]
    exact .done
  | (name, n) :: rest, inside, names, location, path, hlinks, hentries => by
    rw [visitEntries]
    exact (tour_visitNode n inside (names ++ [name]) (location ++ [name]) (path.join name) hlinks
      (hentries _ List.mem_cons_self)).append
      (tour_visitEntries rest inside names location path hlinks fun e he =>
        hentries e (List.mem_cons_of_mem _ he))

end

end

/-- A walk into a directory behind a link is a tour, when it may follow as many links as there
are directories that it is not in. -/
theorem exists_tour_visit (hd : d.top.Proper) (links : Nat) (inside : Inside)
    (names : List String) (l : Location) (path : Path) (entries : List (String × Node))
    (hlinks : (unentered d.top inside).card ≤ links) (hout : l ∉ inside.map Prod.fst)
    (hl : d.top.at? l = some (.dir entries)) :
    ∃ vs, visit d links inside names l path (.dir entries) = .ok ⟨names, true⟩ :: vs ∧
      Tour d (stopsIn ((l, path) :: inside) names l path entries) vs := by
  induction links generalizing inside names l path entries with
  | zero =>
    have hlt := card_unentered_cons_lt (Node.layout_eq_dir.mpr ⟨entries, hl⟩) hout path
    omega
  | succ links ih =>
    have hlt := card_unentered_cons_lt (Node.layout_eq_dir.mpr ⟨entries, hl⟩) hout path
    refine ⟨_, by rw [visit, visitNode], ?_⟩
    exact tour_visitEntries hd ih entries _ names l path (by omega) fun e he =>
      (hd.mem_entries hl he).2

/-- What a walk leads to stands where it leads, whether the last link is followed or not. -/
theorem walk_node_of_ok {top : Node} {followLast : Bool} {links : Nat} {cur : Location}
    {steps : List Step} {found : Found} (h : walk top followLast links cur steps = .ok found) :
    found.node = top.at? found.location := by
  cases followLast with
  | true => exact walk_node h
  | false =>
    induction steps using List.reverseRecOn with
    | nil =>
      cases links with
      | zero => cases h
      | succ links =>
        obtain rfl := Except.ok.inj h
        rfl
    | append_singleton steps step _ =>
      obtain ⟨l, k, -, hdir, hlast⟩ := walk_concat_of_ok h
      rw [hlast false, walk_cons, hdir] at h
      cases step with
      | here | up =>
        obtain rfl := Except.ok.inj h
        rfl
      | name n =>
        dsimp only at h
        split at h
        · rename_i hnone
          obtain rfl := Except.ok.inj h
          exact (Node.layout_eq_none.mp hnone).symm
        · rename_i target hlink
          obtain rfl := Except.ok.inj h
          exact (Node.layout_eq_link.mp hlink).symm
        · obtain rfl := Except.ok.inj h
          rfl

theorem at?_of_linkStat {p : Path} {l : Location} {n : Node} (h : d.linkStat p = .ok (l, n)) :
    d.top.at? l = some n := by
  unfold linkStat at h
  cases hr : d.resolve false p with
  | error f =>
    rw [hr] at h
    cases h
  | ok found =>
    obtain ⟨l', n'⟩ := found
    have hnode : n' = d.top.at? l' := by
      have hp := text_ne_of_resolve hr
      rw [resolve_eq d false hp] at hr
      exact walk_node_of_ok hr
    rw [hr] at h
    cases n' with
    | none => cases h
    | some m =>
      obtain ⟨rfl, rfl⟩ := Prod.mk.inj (Except.ok.inj h)
      exact hnode.symm

/-- The stop that a walk starts from. -/
def Stop.start (l : Location) (p : Path) : Stop := ⟨[], [], l, p⟩

/-- A walk is a tour from its start. -/
theorem tour_walkFrom (hd : d.top.Proper) {p : Path} {l : Location} {n : Node}
    (h : d.linkStat p = .ok (l, n)) : Tour d [.start l p] (walkFrom d p) := by
  rw [walkFrom, h]
  exact tour_visitNode hd (exists_tour_visit hd d.top.dirCount) n [] [] l p
    (card_unentered_nil d.top) (at?_of_linkStat h)

end Disk

end Scaffold
