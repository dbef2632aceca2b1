import Scaffold.Proofs.Disk.Listing

/-!
# Layouts over layouts

`Layout.mount` puts a tree over what is at a location : an item of the tree stands in the place
of an older one, what the tree does not have stays, and the directories above the location are
there. Placing the items of a plain tree one after the other, each with the directories above
it, mounts the tree (`foldl_place_items`), in whatever order they are.
-/

namespace Scaffold

namespace Disk

namespace Layout

/-- A layout with an item at a location and directories above it. -/
def place (l : Location) (item : Item) (old : Layout) : Layout :=
  fun l' => if l' = l then some item else if l' <+: l then some .dir else old l'

/-- A layout with a tree over what is at a location, and directories above it. -/
def mount (dest : Location) (old tree : Layout) : Layout :=
  fun l =>
    if dest <+: l then (tree (l.drop dest.length)).or (old l)
    else if l <+: dest then some .dir
    else old l

theorem withDirs_eq_place (l : Location) (old : Layout) : old.withDirs l = old.place l .dir := by
  funext l'
  unfold withDirs place
  by_cases hl : l' = l
  · rw [if_pos hl, if_pos (hl ▸ List.prefix_rfl)]
  · rw [if_neg hl]

theorem set_withDirs (above : Location) (name : String) (item : Item) (old : Layout) :
    (old.withDirs above).set (above ++ [name]) item = old.place (above ++ [name]) item := by
  funext l
  unfold set withDirs place
  by_cases hl : l = above ++ [name]
  · rw [if_pos hl, if_pos hl]
  · rw [if_neg hl, if_neg hl]
    by_cases hpre : l <+: above
    · rw [if_pos hpre, if_pos (hpre.trans (List.prefix_append ..))]
    · rw [if_neg hpre, if_neg fun h => hpre ((List.prefix_concat_iff.mp h).resolve_left hl)]

/-! ## Mounting below a location -/

/-- Below the location a mounted tree counts first, and what was there stays where it has
nothing. -/
theorem mount_append (dest : Location) (tree old : Layout) (r : Location) :
    old.mount dest tree (dest ++ r) = (tree r).or (old (dest ++ r)) := by
  rw [mount, if_pos (List.prefix_append ..), List.drop_left]

/-- Mounting a tree below a location is mounting it in what is below that location. -/
theorem below_mount (root dest : Location) (tree old : Layout) :
    (old.mount (root ++ dest) tree).below root = (old.below root).mount dest tree := by
  funext l
  unfold below mount
  have hdrop : (root ++ l).drop (root ++ dest).length = l.drop dest.length := by
    rw [List.length_append, ← List.drop_drop, List.drop_left]
  simp only [List.prefix_append_right_inj, hdrop]

/-- Mounting somewhere below a location changes nothing that is neither above nor below it. -/
theorem mount_of_diverging {root dest l : Location} (h : ¬root <+: l) (h' : ¬l <+: root)
    (tree old : Layout) : old.mount (root ++ dest) tree l = old l := by
  have hbelow : ¬root ++ dest <+: l := fun hp => h ((List.prefix_append root dest).trans hp)
  have habove : ¬l <+: root ++ dest := fun hp =>
    (List.prefix_or_prefix_of_prefix hp (List.prefix_append root dest)).elim h' h
  rw [mount, if_neg hbelow, if_neg habove]

/-! ## One item after the other -/

variable {tree : Layout}

/-- What a mounted tree has at a location, or above the location where it is mounted. -/
def mounted (dest : Location) (tree : Layout) (l : Location) : Option Item :=
  if dest <+: l then tree (l.drop dest.length) else some .dir

/-- Placing an item of a tree changes its own location and those above it, as mounting the whole
tree does. -/
theorem place_eq_mounted (hclosed : ∀ a b, b ≠ [] → tree (a ++ b) ≠ none → tree a = some .dir)
    {dest r : Location} {item : Item} (hr : tree r = some item) (old : Layout) (l : Location) :
    old.place (dest ++ r) item l =
      if l <+: dest ++ r then mounted dest tree l else old l := by
  unfold place mounted
  by_cases hl : l = dest ++ r
  · rw [if_pos hl, if_pos (hl ▸ List.prefix_rfl), if_pos (hl ▸ List.prefix_append ..), hl,
      List.drop_left, hr]
  · rw [if_neg hl]
    split
    · rename_i hpre
      split
      · rename_i hdest
        obtain ⟨a, rfl⟩ := hdest
        obtain ⟨b, rfl⟩ := (List.prefix_append_right_inj dest).mp hpre
        have hb : b ≠ [] := fun hb => hl (by rw [hb, List.append_nil])
        rw [List.drop_left, hclosed a b hb (by rw [hr]; exact Option.some_ne_none _)]
      · rfl
    · rfl

/-- Placing items of a tree one after the other changes the locations at and above them. -/
theorem foldl_place (hclosed : ∀ a b, b ≠ [] → tree (a ++ b) ≠ none → tree a = some .dir)
    (dest : Location) :
    ∀ (items : List (Location × Item)) (old : Layout) (l : Location),
      (∀ e ∈ items, tree e.1 = some e.2) →
      items.foldl (fun layout e => layout.place (dest ++ e.1) e.2) old l =
        if ∃ e ∈ items, l <+: dest ++ e.1 then mounted dest tree l else old l
  | [], old, l, _ => by simp
  | e :: items, old, l, h => by
    rw [List.foldl_cons, foldl_place hclosed dest items _ l
      fun e he => h e (List.mem_cons_of_mem _ he),
      place_eq_mounted hclosed (h e List.mem_cons_self)]
    simp only [List.exists_mem_cons_iff]
    by_cases hrest : ∃ e ∈ items, l <+: dest ++ e.1
    · rw [if_pos hrest, if_pos (Or.inr hrest)]
    · rw [if_neg hrest]
      simp only [hrest, or_false]

end Layout

open Layout

/-- Placing the items of a plain tree mounts the tree. -/
theorem foldl_place_items {n : Node} (hn : n.Plain) (dest : Location) (old : Layout) :
    n.items.foldl (fun layout e => layout.place (dest ++ e.1) e.2) old =
      old.mount dest n.layout := by
  have hclosed : ∀ a b, b ≠ [] → n.layout (a ++ b) ≠ none → n.layout a = some .dir :=
    fun a b => Node.layout_of_append
  funext l
  rw [foldl_place hclosed dest n.items old l fun e he => (Node.mem_items hn).mp he]
  unfold mount mounted
  by_cases hdest : dest <+: l
  · obtain ⟨a, rfl⟩ := hdest
    rw [if_pos (List.prefix_append ..), if_pos (List.prefix_append ..), List.drop_left]
    cases ha : n.layout a with
    | none =>
      rw [if_neg, Option.none_or]
      rintro ⟨⟨r, i⟩, he, hpre⟩
      obtain ⟨b, rfl⟩ := (List.prefix_append_right_inj dest).mp hpre
      have hsome := (Node.mem_items hn).mp he
      by_cases hb : b = []
      · rw [hb, List.append_nil, ha] at hsome
        cases hsome
      · rw [hclosed a b hb (by rw [hsome]; exact Option.some_ne_none _)] at ha
        cases ha
    | some i =>
      rw [if_pos ⟨(a, i), (Node.mem_items hn).mpr ha, List.prefix_rfl⟩, Option.some_or]
  · rw [if_neg hdest, if_neg hdest]
    by_cases hl : l <+: dest
    · rw [if_pos hl, if_pos ⟨([], n.item), List.mem_cons_self, hl.trans (List.prefix_append ..)⟩]
    · rw [if_neg hl, if_neg]
      rintro ⟨e, -, hpre⟩
      exact (List.prefix_or_prefix_of_prefix hpre (List.prefix_append ..)).elim hl hdest

end Disk

end Scaffold
