import Scaffold.Proofs.Disk.Layout
import Scaffold.Repository.WorkingTree

/-!
# What working trees gain

A tree that is changed has something new only where the change says so. `Node.Gains` states this
for the items that a change may bring, and each change of a tree has a lemma with what it brings :
forcing a node in brings directories on the way and what is below the node (`gains_force`),
removing brings nothing (`gains_put`, `gains_cut`), and checking out brings what the newer snapshot
tracks and the directories above (`Snapshot.gains_checkOut`). Nothing changes at a location apart
from the one that is changed (`layout_put_of_apart`, `layout_force_of_apart`).
-/

namespace Scaffold

namespace Disk

/-- Whether neither of two locations is at or below the other one. -/
def Apart (a b : Location) : Prop := ¬a <+: b ∧ ¬b <+: a

instance (a b : Location) : Decidable (Apart a b) := inferInstanceAs (Decidable (_ ∧ _))

/-- What is below two locations apart is apart. -/
theorem Apart.append {a b : Location} (h : Apart a b) (r s : Location) :
    Apart (a ++ r) (b ++ s) := by
  constructor
  · intro hp
    exact (List.prefix_or_prefix_of_prefix ((List.prefix_append a r).trans hp)
      (List.prefix_append b s)).elim h.1 h.2
  · intro hp
    exact (List.prefix_or_prefix_of_prefix ((List.prefix_append b s).trans hp)
      (List.prefix_append a r)).elim h.2 h.1

theorem Apart.append_left {a b : Location} (h : Apart a b) (r : Location) : Apart (a ++ r) b := by
  simpa using h.append r []

theorem Apart.append_right {a b : Location} (h : Apart a b) (r : Location) : Apart a (b ++ r) := by
  simpa using h.append [] r

theorem apart_cons {name : String} {a b : Location} (h : Apart (name :: a) (name :: b)) :
    Apart a b :=
  ⟨fun hp => h.1 (by simpa using hp), fun hp => h.2 (by simpa using hp)⟩

theorem Apart.ne_nil {a b : Location} (h : Apart a b) : b ≠ [] := by
  rintro rfl
  exact h.2 List.nil_prefix

namespace Node

/-- A node with nothing below it has an item at its top alone. -/
theorem eq_nil_of_layout {n : Node} (hn : n.entries = []) {r : Location} {i : Item}
    (h : n.layout r = some i) : r = [] ∧ i = n.item := by
  cases r with
  | nil => exact ⟨rfl, (Option.some.inj h).symm⟩
  | cons name r => simp [layout_child, child?, hn] at h

/-- What is apart from where something is stored stays as it is. -/
theorem layout_put_of_apart {l l' : Location} (h : Apart l l') (new : Option Node) (n : Node) :
    (put new l n).layout l' = n.layout l' := by
  rw [layout, at?_put_of_diverging new n h.1 h.2, layout]

/-! ## What is new -/

/-- Whether a tree has nothing but what an older one has and what may be added. -/
def Gains (P : Location → Item → Prop) (n n' : Node) : Prop :=
  ∀ l i, n'.layout l = some i → n.layout l = some i ∨ P l i

variable {P : Location → Item → Prop}

theorem Gains.refl (n : Node) : n.Gains P n := fun _ _ h => Or.inl h

theorem Gains.trans {a b c : Node} (h : a.Gains P b) (h' : b.Gains P c) : a.Gains P c :=
  fun l i hl => (h' l i hl).elim (h l i) Or.inr

/-- Changes one after the other. -/
theorem gains_foldl {α : Type} {f : Node → α → Node} (h : ∀ n a, Gains P n (f n a)) :
    ∀ (as : List α) (n : Node), n.Gains P (as.foldl f n)
  | [], n => .refl n
  | a :: as, n => (h n a).trans (gains_foldl h as (f n a))

/-- A directory in which there is something else under one name. -/
theorem gains_insert {name : String} {c n : Node}
    (htop : n.layout [] = some .dir ∨ P [] .dir)
    (hc : ∀ r i, c.layout r = some i → n.layout (name :: r) = some i ∨ P (name :: r) i) :
    n.Gains P (.dir (Entries.insert name c n.entries)) := by
  intro l i hl
  cases l with
  | nil =>
    obtain rfl : Item.dir = i := Option.some.inj hl
    exact htop
  | cons other r =>
    rw [layout_child, child?, entries, Entries.get?_insert] at hl
    split at hl
    · rename_i hname
      exact hname ▸ hc r i hl
    · rw [layout_child]
      exact Or.inl hl

/-- A directory without one of the names. -/
theorem gains_erase (name : String) (entries : List (String × Node)) :
    (Node.dir entries).Gains P (.dir (Entries.erase name entries)) := by
  intro l i hl
  cases l with
  | nil => exact Or.inl hl
  | cons other r =>
    rw [layout_child, child?, Node.entries, Entries.get?_erase] at hl
    split at hl
    · cases hl
    · rw [layout_child]
      exact Or.inl hl

/-- What is stored in place of something is all that is new. -/
theorem gains_put (new : Option Node) : ∀ {l : Location} {P : Location → Item → Prop} (n : Node),
    (∀ m ∈ new, ∀ r i, m.layout r = some i → P (l ++ r) i) → n.Gains P (put new l n)
  | [], P, n, h => fun r i hr => by
    cases new with
    | none => exact Or.inl hr
    | some m => exact Or.inr (h m rfl r i hr)
  | [name], P, .dir entries, h => by
    cases new with
    | none => exact gains_erase name entries
    | some m =>
      exact gains_insert (n := .dir entries) (Or.inl rfl) fun r i hr => Or.inr (h m rfl r i hr)
  | name :: next :: rest, P, .dir entries, h => by
    cases hc : Entries.get? name entries with
    | none =>
      rw [put, hc]
      · exact .refl _
      · exact List.cons_ne_nil next rest
    | some c =>
      rw [put_cons (List.cons_ne_nil next rest) hc]
      refine gains_insert (n := .dir entries) (Or.inl rfl) fun r i hr => ?_
      have hold : (Node.dir entries).layout (name :: r) = c.layout r := by
        rw [layout_child, child?, Node.entries, hc, Option.bind_some]
      rw [hold]
      exact gains_put new (P := fun r => P (name :: r)) c h r i hr
  | [_], _, .file .., _ | _ :: _ :: _, _, .file .., _ | [_], _, .link _, _
  | _ :: _ :: _, _, .link _, _ => .refl _

/-- A node that is forced in comes with the directories above it. -/
theorem gains_force (new : Node) : ∀ {l : Location} {P : Location → Item → Prop} (n : Node),
    (∀ l', l' <+: l → l' ≠ l → P l' .dir) → (∀ r i, new.layout r = some i → P (l ++ r) i) →
      n.Gains P (force new l n)
  | [], P, n, _, hnew => fun r i hr => Or.inr (hnew r i hr)
  | name :: rest, P, n, hdirs, hnew => by
    refine gains_insert (Or.inr (hdirs [] List.nil_prefix (by simp))) fun r i hr => ?_
    by_cases hrest : rest = []
    · subst hrest
      exact Or.inr (hnew r i hr)
    · have hstep := gains_force new (P := fun r => P (name :: r)) ((n.child? name).getD (.dir []))
        (fun l' hl hne => hdirs (name :: l') (by simpa using hl) (by simpa using hne)) hnew r i hr
      rcases hstep with hold | hmay
      · cases hc : n.child? name with
        | some c =>
          rw [hc] at hold
          rw [layout_child, hc]
          exact Or.inl hold
        | none =>
          rw [hc] at hold
          obtain ⟨rfl, rfl⟩ := eq_nil_of_layout rfl hold
          exact Or.inr (hdirs [name] (by simp) (by simpa using Ne.symm hrest))
      · exact Or.inr hmay

/-- What is apart from where a node is forced in stays as it is. -/
theorem at?_force_of_apart (new : Node) : ∀ {l l' : Location}, Apart l l' → ∀ n : Node,
    (force new l n).at? l' = n.at? l'
  | [], _, h, _ => (h.1 List.nil_prefix).elim
  | _ :: _, [], h, _ => (h.2 List.nil_prefix).elim
  | name :: rest, other :: r, h, n => by
    rw [force, at?, at?, child?, entries, Entries.get?_insert]
    split
    · rename_i hname
      subst hname
      have hr := apart_cons h
      rw [Option.bind_some, at?_force_of_apart new hr]
      cases n.child? name with
      | some c => rfl
      | none =>
        obtain ⟨next, r, rfl⟩ := List.exists_cons_of_ne_nil hr.ne_nil
        rfl
    · rfl

theorem layout_force_of_apart (new : Node) {l l' : Location} (h : Apart l l') (n : Node) :
    (force new l n).layout l' = n.layout l' := by
  rw [layout, at?_force_of_apart new h, layout]

/-- Removing brings nothing. -/
theorem gains_cut : ∀ {l : Location} {P : Location → Item → Prop} {n n' : Node},
    cut l n = some n' → n.Gains P n'
  | [], _, _, _, h => by cases h
  | name :: rest, P, n, n', h => by
    rw [cut] at h
    cases hc : n.child? name with
    | none =>
      rw [hc] at h
      exact Option.some.inj h ▸ .refl n
    | some c =>
      obtain ⟨entries, rfl⟩ : ∃ entries, n = .dir entries := by
        cases n with
        | dir entries => exact ⟨entries, rfl⟩
        | file bytes executable => cases hc
        | link target => cases hc
      rw [hc] at h
      dsimp only at h
      split at h
      · rename_i c' hcut
        obtain rfl := Option.some.inj h
        refine gains_insert (n := .dir entries) (Or.inl rfl) fun r i hr => ?_
        rw [layout_child, hc, Option.bind_some]
        exact gains_cut (P := fun r => P (name :: r)) hcut r i hr
      · split at h
        · cases h
        · obtain rfl := Option.some.inj h
          exact gains_erase name entries

end Node

end Disk

/-! ## Checking out -/

/-- What is at the path of something tracked. -/
def Tracked.item : Tracked → Disk.Item
  | .file bytes executable => .file bytes executable
  | .link target => .link target
  | .submodule _ => .dir

namespace Snapshot

open Disk Node

variable {P : Location → Item → Prop}

/-- What may be added where something is tracked : that, and the directories above it. -/
structure Allows (P : Location → Item → Prop) (e : String × Tracked) : Prop where
  above : ∀ l, l <+: locationOf e.1 → l ≠ locationOf e.1 → P l .dir
  item : P (locationOf e.1) e.2.item

/-- A node with nothing below it that is forced in where it is tracked. -/
theorem gains_force_leaf {e : String × Tracked} (h : Allows P e) {new : Node}
    (hnew : new.entries = []) (hi : new.item = e.2.item) (n : Node) :
    n.Gains P (force new (locationOf e.1) n) := by
  refine gains_force new n h.above fun r i hr => ?_
  obtain ⟨rfl, rfl⟩ := eq_nil_of_layout hnew hr
  rw [List.append_nil, hi]
  exact h.item

theorem gains_place {path : String} {t : Tracked} (h : Allows P (path, t)) (n : Node) :
    n.Gains P (place path t n) := by
  unfold place
  cases t with
  | file bytes executable => exact gains_force_leaf h rfl rfl n
  | link target => exact gains_force_leaf h rfl rfl n
  | submodule id =>
    dsimp only
    split
    · exact .refl n
    · exact gains_force_leaf h rfl rfl n

theorem gains_placeAll : ∀ {s : Snapshot}, (∀ e ∈ s, Allows P e) → ∀ n : Node,
    n.Gains P (placeAll s n)
  | [], _, n => .refl n
  | e :: _, h, n => (gains_place (h e List.mem_cons_self) n).trans
      (gains_placeAll (fun e he => h e (List.mem_cons_of_mem _ he)) _)

/-- Removing what is no longer tracked leaves a directory at the top at least. -/
theorem gains_removeOld (htop : P [] .dir) (new : Snapshot) : ∀ (old : Snapshot) (n : Node),
    n.Gains P (removeOld new old n)
  | [], n => .refl n
  | (path, t) :: old, n => by
    refine Gains.trans ?_ (gains_removeOld htop new old _)
    split
    · cases hcut : cut (locationOf path) n with
      | some n' => exact gains_cut hcut
      | none =>
        intro l i hl
        obtain ⟨rfl, rfl⟩ := eq_nil_of_layout rfl hl
        exact Or.inr htop
    · exact .refl n

/-- Checking out brings what is tracked and the directories above. -/
theorem gains_checkOut (htop : P [] .dir) {s : Snapshot} (h : ∀ e ∈ s, Allows P e)
    (old : Snapshot) (n : Node) : n.Gains P (checkOut old s n) :=
  (gains_removeOld htop s old n).trans (gains_placeAll h _)

end Snapshot

end Scaffold
