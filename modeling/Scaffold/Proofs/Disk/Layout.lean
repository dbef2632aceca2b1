import Scaffold.Disk.Listing
import Scaffold.Repository.Commit

/-!
# What is where

The layout of a tree says of each location what is there : a file with its bytes, a directory,
a link or nothing. Of a directory it says only that it is one, so a layout does not change where
nothing is stored. `layout_put` says that storing a file or an empty directory changes the
layout at its own location.
-/

namespace Scaffold

namespace Disk

-- The bytes of files are compared as those of tracked files are.
deriving instance DecidableEq for Item

/-- A text is read back from its bytes. -/
theorem fromUTF8?_toUTF8 (text : String) : String.fromUTF8? text.toUTF8 = some text :=
  dif_pos text.isValidUTF8

/-- What is at each location. -/
abbrev Layout := Location → Option Item

/-- A layout with directories at a location and above it. -/
def Layout.withDirs (place : Location) (old : Layout) : Layout :=
  fun l => if l <+: place then some .dir else old l

/-- A layout with something else at a location. -/
def Layout.set (place : Location) (item : Item) (old : Layout) : Layout :=
  fun l => if l = place then some item else old l

/-- What is at each location below a location. -/
def Layout.below (root : Location) (layout : Layout) : Layout := fun l => layout (root ++ l)

namespace Node

/-- What a node is, without what is in it. -/
def item : Node → Item
  | .file bytes executable => .file bytes executable
  | .dir _ => .dir
  | .link target => .link target

/-- What is at each location below a node. -/
def layout (n : Node) : Layout := fun l => (n.at? l).map item

theorem item_eq_dir {n : Node} : n.item = .dir ↔ ∃ entries, n = .dir entries := by
  cases n <;> simp [item]

theorem item_eq_link {n : Node} {target : String} :
    n.item = .link target ↔ n = .link target := by
  cases n <;> simp [item]

theorem item_eq_file {n : Node} {bytes : ByteArray} {executable : Bool} :
    n.item = .file bytes executable ↔ n = .file bytes executable := by
  cases n <;> simp [item]

theorem isDir_eq_true {n : Node} : n.isDir = true ↔ ∃ entries, n = .dir entries := by
  cases n <;> simp [isDir]

theorem at?_nil (n : Node) : n.at? [] = some n := rfl

/-- What is at one location below another one is found in what is at the other one. -/
theorem at?_append (n : Node) (a b : Location) : n.at? (a ++ b) = (n.at? a).bind (at? b) := by
  induction a generalizing n with
  | nil => rfl
  | cons name a ih =>
    rw [List.cons_append, at?, at?]
    cases n.child? name with
    | none => rfl
    | some c => exact ih c

theorem at?_concat_dir {n : Node} {l : Location} {entries : List (String × Node)} (name : String)
    (h : n.at? l = some (.dir entries)) : n.at? (l ++ [name]) = Entries.get? name entries := by
  rw [at?_append, h, Option.bind_some, at?, child?, Node.entries]
  cases Entries.get? name entries <;> rfl

/-- Only directories have something below them. -/
theorem at?_eq_none_of_not_dir {n m : Node} {l r : Location} (h : n.at? l = some m)
    (hm : m.isDir = false) (hr : r ≠ []) : n.at? (l ++ r) = none := by
  obtain ⟨name, r, rfl⟩ := List.exists_cons_of_ne_nil hr
  rw [at?_append, h, Option.bind_some, at?]
  cases m with
  | dir entries => simp [isDir] at hm
  | file bytes executable => rfl
  | link target => rfl

theorem layout_eq_none {n : Node} {l : Location} : n.layout l = none ↔ n.at? l = none :=
  Option.map_eq_none_iff

theorem layout_eq_some {n : Node} {l : Location} {i : Item} :
    n.layout l = some i ↔ ∃ m, n.at? l = some m ∧ m.item = i :=
  Option.map_eq_some_iff

theorem layout_eq_dir {n : Node} {l : Location} :
    n.layout l = some .dir ↔ ∃ entries, n.at? l = some (.dir entries) := by
  rw [layout_eq_some]
  constructor
  · rintro ⟨m, hm, hi⟩
    obtain ⟨entries, rfl⟩ := item_eq_dir.mp hi
    exact ⟨entries, hm⟩
  · rintro ⟨entries, h⟩
    exact ⟨_, h, rfl⟩

theorem layout_eq_link {n : Node} {l : Location} {target : String} :
    n.layout l = some (.link target) ↔ n.at? l = some (.link target) := by
  simp only [layout_eq_some, item_eq_link, exists_eq_right]

theorem layout_eq_file {n : Node} {l : Location} {bytes : ByteArray} {executable : Bool} :
    n.layout l = some (.file bytes executable) ↔ n.at? l = some (.file bytes executable) := by
  simp only [layout_eq_some, item_eq_file, exists_eq_right]

/-- The layout of what is at a location is what is below the location. -/
theorem layout_append {n m : Node} {l : Location} (h : n.at? l = some m) (r : Location) :
    n.layout (l ++ r) = m.layout r := by
  rw [layout, layout, at?_append, h]
  rfl

theorem layout_child (name : String) (r : Location) (n : Node) :
    n.layout (name :: r) = (n.child? name).bind (·.layout r) := by
  rw [layout, at?]
  cases n.child? name <;> rfl

/-- What is below something is in a directory. -/
theorem layout_of_append {n : Node} {l r : Location} (hr : r ≠ [])
    (h : n.layout (l ++ r) ≠ none) : n.layout l = some .dir := by
  rw [Ne, layout_eq_none] at h
  rw [layout_eq_dir]
  cases hm : n.at? l with
  | none => exact absurd (by rw [at?_append, hm]; rfl) h
  | some m =>
    cases m with
    | dir entries => exact ⟨entries, rfl⟩
    | file bytes executable => exact absurd (at?_eq_none_of_not_dir hm rfl hr) h
    | link target => exact absurd (at?_eq_none_of_not_dir hm rfl hr) h

/-- Everything above a directory is a directory. -/
theorem layout_above {n : Node} {l l' : Location} (hl : n.layout l = some .dir)
    (h : l' <+: l) : n.layout l' = some .dir := by
  obtain ⟨r, rfl⟩ := h
  by_cases hr : r = []
  · rwa [hr, List.append_nil] at hl
  · exact layout_of_append hr (by rw [hl]; exact Option.some_ne_none _)

/-- A tree has all the directories above a directory in it. -/
theorem withDirs_layout {n : Node} {l : Location} (h : n.layout l = some .dir) :
    n.layout.withDirs l = n.layout := by
  funext l'
  rw [Layout.withDirs]
  split
  · rename_i hl
    exact (layout_above h hl).symm
  · rfl

/-! ## Storing a node -/

theorem put_cons {new : Option Node} {name : String} {rest : Location} (hrest : rest ≠ [])
    {entries : List (String × Node)} {c : Node} (hc : Entries.get? name entries = some c) :
    put new (name :: rest) (.dir entries) =
      .dir (Entries.insert name (put new rest c) entries) := by
  obtain ⟨next, rest, rfl⟩ := List.exists_cons_of_ne_nil hrest
  rw [put, hc]
  exact List.cons_ne_nil next rest

/-- What is neither above nor below where something is stored stays as it is. -/
theorem at?_put_of_diverging (new : Option Node) :
    ∀ {l l' : Location} (n : Node), ¬l <+: l' → ¬l' <+: l → (put new l n).at? l' = n.at? l'
  | [], l', _, h, _ => (h (List.nil_prefix)).elim
  | _ :: _, [], _, _, h => (h (List.nil_prefix)).elim
  | a :: rest, b :: rest', .file .., _, _ => by cases rest <;> rfl
  | a :: rest, b :: rest', .link _, _, _ => by cases rest <;> rfl
  | [a], b :: rest', .dir entries, h, _ => by
    have hab : a ≠ b := fun hab => h (by simp [hab])
    cases new with
    | none =>
      change (Entries.get? b (Entries.erase a entries)).bind (at? rest') = _
      rw [Entries.get?_erase, if_neg hab]
      rfl
    | some m =>
      change (Entries.get? b (Entries.insert a m entries)).bind (at? rest') = _
      rw [Entries.get?_insert, if_neg hab]
      rfl
  | a :: next :: rest, b :: rest', .dir entries, h, h' => by
    cases hc : Entries.get? a entries with
    | none =>
      rw [put, hc]
      exact List.cons_ne_nil next rest
    | some c =>
      rw [put_cons (List.cons_ne_nil next rest) hc, at?, at?, child?, child?, Node.entries,
        Node.entries, Entries.get?_insert]
      by_cases hab : a = b
      · subst hab
        rw [if_pos rfl, hc, Option.bind_some, Option.bind_some]
        exact at?_put_of_diverging new c (fun hp => h (by simpa using hp))
          (fun hp => h' (by simpa using hp))
      · rw [if_neg hab]

/-- Storing a node that has nothing below it in a directory, where nothing was below, changes
what is there and nothing else. -/
theorem layout_put {new : Node} (hnew : ∀ r, r ≠ [] → new.at? r = none) {name : String} :
    ∀ {above : Location} {n : Node}, n.layout above = some .dir →
      (∀ r, r ≠ [] → n.at? (above ++ [name] ++ r) = none) →
      (put (some new) (above ++ [name]) n).layout = n.layout.set (above ++ [name]) new.item
  | [], n, hdir, hold => by
    obtain ⟨entries, he⟩ := layout_eq_dir.mp hdir
    obtain rfl := Option.some.inj he
    funext l
    cases l with
    | nil => rfl
    | cons other r =>
      rw [List.nil_append, put, layout, at?, child?, Node.entries, Entries.get?_insert,
        Layout.set]
      by_cases ho : name = other
      · subst ho
        rw [if_pos rfl, Option.bind_some]
        by_cases hr : r = []
        · rw [hr, if_pos rfl]
          rfl
        · rw [hnew r hr, if_neg (by simp [hr]), layout]
          exact congrArg (Option.map item) (hold r hr).symm
      · rw [if_neg ho, if_neg (by simp [Ne.symm ho])]
        rfl
  | next :: above, n, hdir, hold => by
    obtain ⟨entries, he⟩ : ∃ entries, n = .dir entries := by
      have h := layout_above hdir (List.nil_prefix (l := next :: above))
      exact item_eq_dir.mp (Option.some.inj h)
    subst he
    obtain ⟨c, hc, hat⟩ : ∃ c, Entries.get? next entries = some c ∧ c.layout above = some .dir := by
      rw [layout, at?, child?, Node.entries] at hdir
      cases hc : Entries.get? next entries with
      | none => simp [hc] at hdir
      | some c => exact ⟨c, rfl, by rwa [hc] at hdir⟩
    have hold' : ∀ r, r ≠ [] → c.at? (above ++ [name] ++ r) = none := fun r hr => by
      have h := hold r hr
      rwa [List.cons_append, List.cons_append, at?, child?, Node.entries, hc] at h
    have ih := layout_put hnew hat hold'
    rw [List.cons_append, put_cons (by simp) hc]
    funext l
    cases l with
    | nil => rfl
    | cons other r =>
      rw [layout, at?, child?, Node.entries, Entries.get?_insert, Layout.set]
      by_cases ho : next = other
      · subst ho
        rw [if_pos rfl, Option.bind_some]
        have hr := congrFun ih r
        rw [layout, Layout.set] at hr
        rw [hr]
        simp only [List.cons.injEq, true_and]
        split
        · rfl
        · rw [layout, layout, at?, child?, Node.entries, hc]
          rfl
      · rw [if_neg ho, if_neg (by simp [Ne.symm ho])]
        rfl

end Node

end Disk

end Scaffold
