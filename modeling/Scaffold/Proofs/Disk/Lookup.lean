import Scaffold.Proofs.Disk.Way
import Mathlib.Data.List.Infix

/-!
# Looking names up

Below a directory without links names lead to what is there under them and nowhere else. So
what a path with more names leads to can be read off the layout, and so can the fault when it
leads nowhere : a file on the way is no directory, or the way ends early (`stat_joinAll_eq`).
-/

namespace Scaffold

open Scaffold.Path

namespace Disk

/-- Whether an item is a file. -/
def Item.isFile : Item → Bool
  | .file .. => true
  | _ => false

/-- Why there is nothing at a location : there is a file above it, or something is missing. -/
def Layout.missing (layout : Layout) (l : Location) : Fault :=
  if l.inits.any fun above => (layout above).any Item.isFile then .notDirectory else .notFound

/-- What is there, if anything is. -/
def Found.there (found : Found) : Except Fault (Location × Node) :=
  found.node.elim (.error .notFound) fun n => .ok (found.location, n)

theorem stat_eq (d : Disk) (p : Path) : d.stat p = (d.resolve true p).bind Found.there := by
  unfold stat
  cases d.resolve true p with
  | error f => rfl
  | ok found =>
    obtain ⟨l, n⟩ := found
    cases n <;> rfl

namespace Layout

variable {layout : Layout}

/-- A file has nothing below it. -/
theorem missing_of_file {bytes : ByteArray} {executable : Bool}
    (h : layout [] = some (.file bytes executable)) (l : Location) :
    layout.missing l = .notDirectory := by
  refine if_pos (List.any_eq_true.mpr ⟨[], (List.mem_inits ..).mpr List.nil_prefix, ?_⟩)
  rw [h]
  rfl

theorem missing_of_dir (h : layout [] = some .dir) (name : String) (l : Location) :
    layout.missing (name :: l) = (layout.below [name]).missing l := by
  unfold missing
  rw [List.inits_cons, List.any_cons, h, List.any_map]
  rfl

theorem below_nil (root : Location) : layout.below root [] = layout root := by
  rw [below, List.append_nil]

/-- What is missing in a directory is missing below one of its names. -/
theorem missing_below_cons {root : Location} (h : layout root = some .dir) (name : String)
    (l : Location) :
    (layout.below root).missing (name :: l) = (layout.below (root ++ [name])).missing l := by
  rw [missing_of_dir ((below_nil root).trans h)]
  congr 1
  funext l
  simp [below]

end Layout

theorem missing_of_none {top : Node} {root : Location} (h : top.layout root = none)
    (l : Location) : (top.layout.below root).missing l = .notFound := by
  refine if_neg fun hany => ?_
  obtain ⟨above, -, hfile⟩ := List.any_eq_true.mp hany
  have hsome : top.layout (root ++ above) ≠ none := fun hnone => by
    rw [Layout.below, hnone] at hfile
    cases hfile
  rcases List.eq_nil_or_concat above with rfl | ⟨_, _, rfl⟩
  · rw [List.append_nil] at hsome
    exact hsome h
  · rw [Node.layout_of_append (by simp) hsome] at h
    cases h

/-- There is nothing below what is no directory. -/
theorem at?_append_cons_eq_none {top : Node} {root : Location} (h : top.layout root ≠ some .dir)
    (name : String) (names : List String) : top.at? (root ++ name :: names) = none := by
  rw [← Node.layout_eq_none]
  by_contra hsome
  exact h (Node.layout_of_append (List.cons_ne_nil name names) hsome)

/-- Where a walk over names leads in a tree without links. -/
theorem walk_names {top : Node} {links : Nat} (names : List String) {root : Location}
    (hfree : ∀ r target, top.layout (root ++ r) ≠ some (.link target)) :
    (walk top true (links + 1) root (names.map Step.name)).bind Found.there =
      match top.at? (root ++ names) with
      | some n => .ok (root ++ names, n)
      | none => .error ((top.layout.below root).missing names) := by
  induction names generalizing root with
  | nil =>
    rw [List.append_nil]
    change Found.there ⟨root, top.at? root⟩ = _
    cases hn : top.at? root with
    | none => rw [missing_of_none (Node.layout_eq_none.mpr hn)]; rfl
    | some n => rfl
  | cons name names ih =>
    rw [List.map_cons, walk_name]
    cases hroot : top.layout root with
    | none =>
      rw [at?_append_cons_eq_none (by simp [hroot]), missing_of_none hroot]
      rfl
    | some i =>
      cases i with
      | link target =>
        have h := hfree [] target
        rw [List.append_nil] at h
        exact (h hroot).elim
      | file bytes executable =>
        rw [at?_append_cons_eq_none (by simp [hroot]),
          Layout.missing_of_file ((Layout.below_nil root).trans hroot)]
        rfl
      | dir =>
        dsimp only
        have hfree' : ∀ r target, top.layout (root ++ [name] ++ r) ≠ some (.link target) := by
          intro r target
          rw [List.append_assoc]
          exact hfree _ target
        have ih := ih hfree'
        rw [List.append_assoc, List.singleton_append] at ih
        rw [Layout.missing_below_cons hroot]
        cases hname : top.layout (root ++ [name]) with
        | none =>
          have hnone' : top.at? (root ++ name :: names) = none := by
            rw [← List.singleton_append, ← List.append_assoc, Node.at?_append,
              Node.layout_eq_none.mp hname]
            rfl
          rw [hnone', missing_of_none hname]
          dsimp only
          split <;> rfl
        | some i =>
          cases i with
          | link target => exact (hfree [name] target hname).elim
          | dir => exact ih
          | file bytes executable => exact ih

/-- One more name after a walk that leads nowhere. -/
theorem walk_concat_of_error {top : Node} {links : Nat} {cur : Location} {xs : List Step}
    {f : Fault} (h : (walk top true links cur xs).bind Found.there = .error f)
    (followLast : Bool) (name : String) :
    walk top followLast links cur (xs ++ [.name name]) = .error f := by
  rcases walk_append top links cur xs with ⟨f', hf, hmore⟩ | ⟨l, k, hl, hmore⟩
  · rw [hf] at h
    obtain rfl := Except.error.inj h
    exact hmore followLast _ (by simp)
  · rw [hl] at h
    cases hn : top.at? l with
    | none =>
      rw [hn] at h
      obtain rfl := Except.error.inj h
      rw [hmore followLast _ (by simp), walk_name, Node.layout_eq_none.mpr hn]
    | some n =>
      rw [hn] at h
      cases h

/-- One more name after a walk is looked up where the walk leads. -/
theorem walk_concat_of_there {top : Node} {links : Nat} {cur l : Location} {xs : List Step}
    {n : Node} (h : (walk top true links cur xs).bind Found.there = .ok (l, n)) (name : String) :
    ∃ k, ∀ followLast, walk top followLast links cur (xs ++ [.name name]) =
      walk top followLast (k + 1) l [.name name] := by
  rcases walk_append top links cur xs with ⟨f, hf, -⟩ | ⟨l', k, hl, hmore⟩
  · rw [hf] at h
    cases h
  · rw [hl] at h
    cases hn : top.at? l' with
    | none =>
      rw [hn] at h
      cases h
    | some n' =>
      rw [hn] at h
      obtain ⟨rfl, -⟩ := Prod.mk.inj (Except.ok.inj h)
      exact ⟨k, fun followLast => hmore followLast _ (by simp)⟩

/-- The last name of a walk is looked up in the directory that the names before it lead to. -/
theorem walk_names_concat {top : Node} {links : Nat} (followLast : Bool) (names : List String)
    (name : String) {root : Location}
    (hfree : ∀ r target, top.layout (root ++ r) ≠ some (.link target)) :
    walk top followLast (links + 1) root ((names ++ [name]).map Step.name) =
      match top.layout (root ++ names) with
      | some .dir => .ok ⟨root ++ names ++ [name], top.at? (root ++ names ++ [name])⟩
      | some _ => .error .notDirectory
      | none => .error ((top.layout.below root).missing names) := by
  have hnames : (walk top true (links + 1) root (names.map Step.name)).bind Found.there = _ :=
    walk_names names hfree
  rw [List.map_append]
  cases hn : top.at? (root ++ names) with
  | none =>
    rw [hn] at hnames
    rw [Node.layout_eq_none.mpr hn]
    exact walk_concat_of_error hnames followLast name
  | some n =>
    rw [hn] at hnames
    obtain ⟨k, hk⟩ := walk_concat_of_there hnames name
    rw [List.map_singleton, hk, walk_name]
    cases hroot : top.layout (root ++ names) with
    | none => rw [Node.layout_eq_none.mp hroot] at hn; cases hn
    | some i =>
      cases i with
      | file | link => rfl
      | dir =>
        dsimp only
        split
        · rename_i hlast
          rw [Node.layout_eq_none.mp hlast]
          rfl
        · rename_i target hlast
          rw [List.append_assoc] at hlast
          exact (hfree _ target hlast).elim
        · rfl

/-- The walk along more names starts where the path leads. -/
theorem exists_follow_names {d : Disk} {ps : List Part} {root : Location} {n : Node}
    (hps : d.follow true ps = .ok ⟨root, some n⟩) {names : List String} (hne : names ≠ []) :
    ∃ links, ∀ followLast, d.follow followLast (ps ++ names.map Part.name) =
      walk d.top followLast (links + 1) root (names.map Step.name) := by
  have horigin : d.origin (ps ++ names.map Part.name) = d.origin ps := by
    cases ps with
    | nil => cases names <;> rfl
    | cons c ps => rfl
  have hsteps : stepsOfParts (ps ++ names.map Part.name) =
      stepsOfParts ps ++ names.map Step.name := by
    simp [stepsOfParts, List.filterMap_append, List.filterMap_map, Function.comp_def, stepOfPart?]
  rcases walk_append d.top (maxLinks + 1) (d.origin ps) (stepsOfParts ps) with
    ⟨f, hf, -⟩ | ⟨l, links, hl, hmore⟩
  · rw [follow, hf] at hps
    cases hps
  · rw [follow, hl] at hps
    obtain ⟨rfl, -⟩ := Found.mk.inj (Except.ok.inj hps)
    refine ⟨links, fun followLast => ?_⟩
    rw [follow, horigin, hsteps, hmore followLast _ (by simpa using hne)]

/-- What one more name or several lead to, when there are no links below what a path leads to. -/
theorem stat_joinAll_of_follow {d : Disk} {p : Path} {root : Location} {n : Node}
    (hp : d.follow true p.parts = .ok ⟨root, some n⟩)
    (hfree : ∀ r target, d.top.layout (root ++ r) ≠ some (.link target)) {names : List String}
    (hnames : ∀ name ∈ names, IsName name) (hne : names ≠ []) :
    d.stat (p.joinAll names) =
      match d.top.at? (root ++ names) with
      | some m => .ok (root ++ names, m)
      | none => .error ((d.top.layout.below root).missing names) := by
  obtain ⟨names, name, rfl⟩ := (List.eq_nil_or_concat' names).resolve_left hne
  have hname : IsName name := hnames name (by simp)
  have hparts : (p.joinAll names).parts ++ [.name name] =
      p.parts ++ (names ++ [name]).map Part.name := by
    rw [parts_joinAll p names fun m hm => hnames m (List.mem_append_left _ hm)]
    simp
  obtain ⟨links, hwalk⟩ := exists_follow_names hp hne
  have hjoin := resolve_join d true (p.joinAll names) (c := .name name) hname
  rw [hparts, hwalk] at hjoin
  rw [joinAll_concat, stat_eq]
  exact (congrArg (·.bind Found.there) hjoin).trans (walk_names _ hfree)

/-- What a path with more names leads to, when there are no links below what it leads to. -/
theorem stat_joinAll_eq {d : Disk} {p : Path} {root : Location} {n : Node}
    (hp : d.stat p = .ok (root, n))
    (hfree : ∀ r target, d.top.layout (root ++ r) ≠ some (.link target)) {names : List String}
    (hnames : ∀ name ∈ names, IsName name) :
    d.stat (p.joinAll names) =
      match d.top.at? (root ++ names) with
      | some m => .ok (root ++ names, m)
      | none => .error ((d.top.layout.below root).missing names) := by
  by_cases hne : names = []
  · rw [hne, List.append_nil, joinAll_nil, hp, at?_of_stat hp]
  · exact stat_joinAll_of_follow (follow_of_stat hp) hfree hnames hne

end Disk

end Scaffold
