import Scaffold.Disk.Walk
import Scaffold.Proofs.Disk.Way
import Mathlib.Data.List.Nodup

/-!
# Trees without links

`Plain` trees are what can be copied as it is : no links, and entries of a directory with names
of their own, each of which is one name. The list of a plain tree is its layout (`mem_items`),
and a walk from a plain directory comes by what is in the list, in order
(`walkFrom_of_plain`).
-/

namespace Scaffold

open Scaffold.Path

namespace Disk

/-- Whether an item is a directory. -/
def Item.isDir : Item → Bool
  | .dir => true
  | _ => false

namespace Node

/-- A tree without links, where each directory has entries with proper names of their own. -/
inductive Plain : Node → Prop
  | file (bytes : ByteArray) (executable : Bool) : Plain (.file bytes executable)
  | dir {entries : List (String × Node)} : (entries.map Prod.fst).Nodup →
    (∀ e ∈ entries, IsName e.1) → (∀ e ∈ entries, Plain e.2) → Plain (.dir entries)

/-- The items of a tree, its top included. -/
def items (n : Node) : List (Location × Item) := ([], n.item) :: n.listing

theorem listingOf_cons (name : String) (n : Node) (rest : List (String × Node)) :
    listingOf ((name, n) :: rest) =
      n.items.map (fun e => (name :: e.1, e.2)) ++ listingOf rest := by
  cases n <;> rfl

/-- What is listed below entries is in one of them, under its name. -/
theorem mem_listingOf {r : Location} {i : Item} :
    ∀ {entries : List (String × Node)}, (r, i) ∈ listingOf entries ↔
      ∃ e ∈ entries, ∃ rest, r = e.1 :: rest ∧ (rest, i) ∈ e.2.items
  | [] => by simp [listingOf]
  | (name, n) :: entries => by
    rw [listingOf_cons, List.mem_append, mem_listingOf, List.exists_mem_cons_iff]
    refine or_congr ?_ Iff.rfl
    rw [List.mem_map]
    constructor
    · rintro ⟨⟨rest, i⟩, hmem, heq⟩
      obtain ⟨rfl, rfl⟩ := Prod.mk.inj heq
      exact ⟨rest, rfl, hmem⟩
    · rintro ⟨rest, rfl, hmem⟩
      exact ⟨(rest, i), hmem, rfl⟩

theorem get?_eq_some_iff {name : String} {n : Node} :
    ∀ {entries : List (String × Node)}, (entries.map Prod.fst).Nodup →
      (Entries.get? name entries = some n ↔ (name, n) ∈ entries)
  | [], _ => by simp
  | (k, m) :: entries, h => by
    rw [List.map_cons, List.nodup_cons] at h
    rw [Entries.get?, List.mem_cons]
    by_cases hk : k = name
    · subst hk
      rw [if_pos rfl, Option.some.injEq, Prod.mk.injEq]
      constructor
      · rintro rfl
        exact Or.inl ⟨rfl, rfl⟩
      · rintro (⟨-, rfl⟩ | hmem)
        · rfl
        · exact (h.1 (List.mem_map.mpr ⟨_, hmem, rfl⟩)).elim
    · rw [if_neg hk, get?_eq_some_iff h.2, Prod.mk.injEq]
      exact ⟨Or.inr, fun hn => hn.resolve_left fun heq => hk heq.1.symm⟩

theorem layout_cons (name : String) (rest : Location) (entries : List (String × Node)) (i : Item) :
    (Node.dir entries).layout (name :: rest) = some i ↔
      ∃ n, Entries.get? name entries = some n ∧ n.layout rest = some i := by
  rw [layout_child, child?, Node.entries, Option.bind_eq_some_iff]

/-- The list of a plain tree says what is where. -/
theorem mem_items {n : Node} (h : n.Plain) {r : Location} {i : Item} :
    (r, i) ∈ n.items ↔ n.layout r = some i := by
  induction h generalizing r with
  | file bytes executable =>
    cases r with
    | nil => simp [items, listing, layout, at?, item, eq_comm]
    | cons name rest => simp [items, listing, layout, at?, child?, Node.entries]
  | @dir entries hnd hnames hplain ih =>
    rw [items, listing, List.mem_cons]
    cases r with
    | nil =>
      rw [mem_listingOf]
      simp [layout, at?, item, eq_comm]
    | cons name rest =>
      rw [mem_listingOf, layout_cons]
      constructor
      · rintro (h | ⟨e, he, rest', heq, hmem⟩)
        · simp at h
        · obtain ⟨rfl, rfl⟩ := List.cons.inj heq
          exact ⟨e.2, (get?_eq_some_iff hnd).mpr he, (ih e he).mp hmem⟩
      · rintro ⟨n, hn, hrest⟩
        have he := (get?_eq_some_iff hnd).mp hn
        exact Or.inr ⟨(name, n), he, rest, rfl, (ih _ he).mpr hrest⟩

/-- What is in a plain tree is plain. -/
theorem Plain.at? {n m : Node} {r : Location} (h : n.Plain) (hm : n.at? r = some m) : m.Plain := by
  induction h generalizing r with
  | file bytes executable =>
    cases r with
    | nil =>
      obtain rfl := Option.some.inj hm
      exact .file bytes executable
    | cons name rest => cases hm
  | @dir entries hnd hnames hplain ih =>
    cases r with
    | nil =>
      obtain rfl := Option.some.inj hm
      exact .dir hnd hnames hplain
    | cons name rest =>
      rw [Node.at?, child?, Node.entries, Option.bind_eq_some_iff] at hm
      obtain ⟨c, hc, hm⟩ := hm
      exact ih _ ((get?_eq_some_iff hnd).mp hc) hm

theorem Plain.layout_ne_link {n : Node} (h : n.Plain) (r : Location) (target : String) :
    n.layout r ≠ some (.link target) := by
  intro hl
  have hm := h.at? (layout_eq_link.mp hl)
  cases hm

theorem Plain.isName {n : Node} {r : Location} (h : n.Plain) (hr : n.layout r ≠ none) :
    ∀ name ∈ r, IsName name := by
  induction h generalizing r with
  | file bytes executable =>
    cases r with
    | nil => simp
    | cons name rest => exact (hr rfl).elim
  | @dir entries hnd hnames hplain ih =>
    cases r with
    | nil => simp
    | cons name rest =>
      obtain ⟨i, hi⟩ := Option.ne_none_iff_exists'.mp hr
      obtain ⟨n, hn, hrest⟩ := (layout_cons name rest entries i).mp hi
      have he := (get?_eq_some_iff hnd).mp hn
      rw [List.forall_mem_cons]
      exact ⟨hnames _ he, ih _ he (by rw [hrest]; exact Option.some_ne_none _)⟩

end Node

/-! ## Walks from a directory -/

/-- What a walk comes by at an item, below some names. -/
def visitOf (names : List String) (e : Location × Item) : Except Fault Visit :=
  .ok ⟨names ++ e.1, e.2.isDir⟩

/-- A walk over a plain tree comes by its items, from the top down. -/
theorem visitNode_of_plain (d : Disk) (enter : Enter) {n : Node} (h : n.Plain) (inside : Inside)
    (names : List String) (location : Location) (path : Path) :
    visitNode d enter inside names location path n = n.items.map (visitOf names) := by
  induction h generalizing inside names location path with
  | file bytes executable =>
    simp [visitNode, Node.items, Node.listing, visitOf, Node.item, Item.isDir]
  | @dir entries hnd hnames hplain ih =>
    have hentries : ∀ (es : List (String × Node)) (inside : Inside), (∀ e ∈ es, e ∈ entries) →
        visitEntries d enter inside names location path es =
          (listingOf es).map (visitOf names) := by
      intro es inside hes
      induction es with
      | nil => rfl
      | cons e es ihes =>
        obtain ⟨name, n⟩ := e
        rw [visitEntries, Node.listingOf_cons, List.map_append, List.map_map,
          ih (name, n) (hes _ List.mem_cons_self),
          ihes fun e he => hes e (List.mem_cons_of_mem _ he)]
        congr 1
        refine List.map_congr_left fun e _ => ?_
        simp [visitOf]
    rw [visitNode, hentries entries _ fun _ he => he]
    simp [Node.items, Node.listing, visitOf, Node.item, Item.isDir]

/-- A walk from a path that leads to a plain directory comes by its items. -/
theorem walkFrom_of_plain {d : Disk} {p : Path} {l : Location} {n : Node}
    (h : d.stat p = .ok (l, n)) (hdir : n.isDir = true) (hn : n.Plain) :
    walkFrom d p = n.items.map (visitOf []) := by
  have hroot : ∃ k, d.top.dirCount = k + 1 := by
    obtain ⟨entries, rfl⟩ := Node.isDir_eq_true.mp hdir
    have hl := Node.layout_eq_dir.mpr ⟨entries, at?_of_stat h⟩
    obtain ⟨entries, he⟩ := Node.layout_eq_dir.mp (Node.layout_above hl List.nil_prefix)
    rw [Option.some.inj he, Node.dirCount]
    exact ⟨_, Nat.add_comm 1 _⟩
  obtain ⟨k, hk⟩ := hroot
  obtain ⟨l', n', hls, hlink⟩ := exists_linkStat_of_stat h
  rw [walkFrom, hls]
  rcases hlink with ⟨target, rfl⟩ | ⟨rfl, rfl⟩
  -- The directory may be given by a link to it, which is followed first.
  · simp only [visit, visitNode, h, hdir, if_true, List.find?_nil, hk]
    exact visitNode_of_plain d _ hn [] [] l p
  · exact visitNode_of_plain d _ hn [] [] l' p

end Disk

end Scaffold
