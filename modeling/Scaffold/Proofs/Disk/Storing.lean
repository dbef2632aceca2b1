import Mathlib.Data.List.Basic
import Scaffold.Proofs.Disk.Way

/-!
# Places that a path leads to

Storing a node at a location, or removing what is there, changes what is at the location and below
it and nothing else (`Node.layout_put_of_outside`).

A path that leads to a free place leads there whatever is stored at the place later : the way to it
does not go through it. `Disk.Reaches` says so of a path and a location, and then the path leads to
the directory that is there (`Reaches.stat`). It stays so when something changes at the location
alone (`Reaches.congr`).
-/

namespace Scaffold

namespace Disk

namespace Node

/-! ## Storing -/

theorem put_of_missing {new : Option Node} {name : String} {rest : Location} (hrest : rest ≠ [])
    {entries : List (String × Node)} (hc : Entries.get? name entries = none) :
    put new (name :: rest) (.dir entries) = .dir entries := by
  obtain ⟨next, rest, rfl⟩ := List.exists_cons_of_ne_nil hrest
  rw [put, hc]
  exact List.cons_ne_nil next rest

/-- What is in a directory after something was stored below it. -/
theorem child?_put (new : Option Node) (name : String) (rest : Location)
    (entries : List (String × Node)) (other : String) :
    (put new (name :: rest) (.dir entries)).child? other =
      if name = other then
        if rest = [] then new else (Entries.get? name entries).map (put new rest)
      else Entries.get? other entries := by
  by_cases hrest : rest = []
  · subst hrest
    cases new with
    | none => exact (Entries.get?_erase ..).trans (by simp)
    | some m => exact (Entries.get?_insert ..).trans (by simp)
  · rw [if_neg hrest]
    cases hc : Entries.get? name entries with
    | none =>
      rw [put_of_missing hrest hc]
      split
      · rename_i hname
        exact hname ▸ hc
      · rfl
    | some c =>
      rw [put_cons hrest hc]
      exact Entries.get?_insert ..

/-- Something that is stored below the top leaves the top what it is. -/
theorem item_put_cons (new : Option Node) (name : String) (rest : Location) (n : Node) :
    (put new (name :: rest) n).item = n.item := by
  cases n with
  | file bytes executable => cases rest <;> rfl
  | link target => cases rest <;> rfl
  | dir entries =>
    cases rest with
    | nil => cases new <;> rfl
    | cons next rest =>
      cases hc : Entries.get? name entries with
      | none => rw [put_of_missing (List.cons_ne_nil next rest) hc]
      | some c =>
        rw [put_cons (List.cons_ne_nil next rest) hc]
        rfl

theorem put_of_not_dir {n : Node} (hn : n.isDir = false) (new : Option Node) (name : String)
    (rest : Location) : put new (name :: rest) n = n := by
  cases n with
  | file bytes executable => cases rest <;> rfl
  | link target => cases rest <;> rfl
  | dir entries => cases hn

/-- What is neither at the location where something is stored nor below it stays as it is. -/
theorem layout_put_of_outside (new : Option Node) : ∀ {l x : Location} (n : Node),
    ¬l <+: x → (put new l n).layout x = n.layout x
  | [], _, _, h => (h List.nil_prefix).elim
  | name :: rest, [], n, _ => congrArg some (item_put_cons new name rest n)
  | name :: rest, other :: x, .file .., _ => by rw [put_of_not_dir rfl]
  | name :: rest, other :: x, .link _, _ => by rw [put_of_not_dir rfl]
  | name :: rest, other :: x, .dir entries, h => by
    rw [layout_child, layout_child, child?_put, child?, Node.entries]
    split
    · rename_i hname
      subst hname
      have hx : ¬rest <+: x := fun hp => h (by simpa using hp)
      rw [if_neg fun hrest : rest = [] => hx (hrest ▸ List.nil_prefix)]
      cases Entries.get? name entries with
      | none => rfl
      | some c => exact layout_put_of_outside new c hx
    · rfl

/-- Nothing is where something was removed. -/
theorem layout_put_none : ∀ {l : Location}, l ≠ [] → ∀ (n : Node) (r : Location),
    (put none l n).layout (l ++ r) = none
  | [], h, _, _ => (h rfl).elim
  | name :: rest, _, .file .., _ => by
    rw [put_of_not_dir rfl]
    rfl
  | name :: rest, _, .link _, _ => by
    rw [put_of_not_dir rfl]
    rfl
  | name :: rest, _, .dir entries, r => by
    rw [List.cons_append, layout_child, child?_put, if_pos rfl]
    split
    · rfl
    · rename_i hrest
      cases Entries.get? name entries with
      | none => rfl
      | some c => exact layout_put_none hrest c r

/-- What was stored is where it was stored, in a directory. -/
theorem at?_put_append (new : Node) {name : String} : ∀ {above : Location} {n : Node},
    n.layout above = some .dir → ∀ r,
      (put (some new) (above ++ [name]) n).at? (above ++ [name] ++ r) = new.at? r
  | [], n, h, r => by
    obtain ⟨entries, rfl⟩ := item_eq_dir.mp (Option.some.inj h)
    rw [List.nil_append, List.singleton_append, at?, child?_put, if_pos rfl, if_pos rfl]
    rfl
  | first :: above, n, h, r => by
    obtain ⟨entries, rfl⟩ := item_eq_dir.mp (Option.some.inj (layout_above h List.nil_prefix))
    rw [layout_child, Option.bind_eq_some_iff] at h
    obtain ⟨c, hc, h⟩ := h
    have hget : Entries.get? first entries = some c := hc
    rw [List.cons_append, List.cons_append, at?, child?_put, if_pos rfl, if_neg (by simp), hget]
    exact at?_put_append new h r

/-- What was stored in place of something is there. -/
theorem at?_put_of_at? (new : Node) {l : Location} {n m : Node} (h : n.at? l = some m) :
    (put (some new) l n).at? l = some new := by
  rcases List.eq_nil_or_concat' l with rfl | ⟨above, name, rfl⟩
  · rfl
  · have hdir : n.layout above = some .dir :=
      layout_of_append (List.cons_ne_nil name []) (by simp [layout, h])
    simpa [at?_nil] using at?_put_append new hdir []

/-- Storing below something that is there changes it there. -/
theorem at?_put_below (new : Option Node) {r : Location} (hr : r ≠ []) :
    ∀ {l : Location} {n m : Node}, n.at? l = some m →
      (put new (l ++ r) n).at? l = some (put new r m)
  | [], _, _, h => congrArg (fun n => some (put new r n)) (Option.some.inj h)
  | name :: l, n, m, h => by
    rw [at?, Option.bind_eq_some_iff] at h
    obtain ⟨c, hc, h⟩ := h
    obtain ⟨entries, rfl⟩ : ∃ entries, n = .dir entries := by
      cases n with
      | dir entries => exact ⟨entries, rfl⟩
      | file bytes executable => cases hc
      | link target => cases hc
    have hget : Entries.get? name entries = some c := hc
    rw [List.cons_append, at?, child?_put, if_pos rfl, if_neg (by simp [hr]), hget]
    exact at?_put_below new hr h

end Node

/-! ## Paths to a place -/

/-- Whether a path leads to a location, whatever is there : with nothing there it leads to a free
place. -/
def Reaches (d : Disk) (p : Path) (l : Location) : Prop :=
  ({ d with top := d.top.put none l } : Disk).resolve true p = .ok ⟨l, none⟩

variable {d d' : Disk} {p : Path} {l : Location}

theorem Reaches.ne_nil (h : d.Reaches p l) : l ≠ [] := by
  rintro rfl
  have hp := text_ne_of_resolve h
  rw [Reaches, resolve_eq _ true hp] at h
  have hnode := walk_node h
  cases hnode

/-- A path that leads to a free place on one disk leads there on another one that has the same
elsewhere, where the place is free or a directory. -/
theorem resolve_of_free (h : d.resolve true p = .ok ⟨l, none⟩) (d' : Disk)
    (hhere : d'.here = d.here) (hsame : ∀ x, ¬l <+: x → d'.top.layout x = d.top.layout x)
    (hfree : d'.top.layout l = none ∨ d'.top.layout l = some .dir) :
    d'.resolve true p = .ok ⟨l, d'.top.at? l⟩ := by
  have hp := text_ne_of_resolve h
  have hnone : d.top.at? l = none := by
    rw [resolve_eq d true hp] at h
    exact (walk_node h).symm
  have hg : d.top.layout.Grows d'.top.layout := fun x => by
    by_cases hx : l <+: x
    · obtain ⟨r, rfl⟩ := hx
      refine Or.inr (Or.inl ?_)
      rw [Node.layout_eq_none, Node.at?_append, hnone]
      rfl
    · exact Or.inl (hsame x hx)
  rw [resolve_eq d true hp] at h
  rw [resolve_eq d' true hp, origin, hhere]
  exact walk_of_grows_of_free hg (fun _ => hfree) h

/-- A path leads to the directory that is where it reaches. -/
theorem Reaches.stat (h : d.Reaches p l) {entries : List (String × Node)}
    (hl : d.top.at? l = some (.dir entries)) : d.stat p = .ok (l, .dir entries) := by
  rw [stat_eq_ok, ← hl]
  refine resolve_of_free h d rfl (fun x hx => ?_) ?_
  · exact (Node.layout_put_of_outside none d.top hx).symm
  · exact Or.inr (Node.layout_eq_dir.mpr ⟨entries, hl⟩)

/-- A path reaches a location if elsewhere nothing changes. -/
theorem Reaches.congr (h : d.Reaches p l) (hhere : d'.here = d.here)
    (hsame : ∀ x, ¬l <+: x → d'.top.layout x = d.top.layout x) : d'.Reaches p l := by
  have hnone : ({ d' with top := d'.top.put none l } : Disk).top.layout l = none := by
    simpa using Node.layout_put_none h.ne_nil d'.top []
  have hres := resolve_of_free h { d' with top := d'.top.put none l } hhere (fun x hx => ?_)
    (Or.inl hnone)
  · rw [Reaches, hres, Node.layout_eq_none.mp hnone]
  · exact (Node.layout_put_of_outside none d'.top hx).trans
      ((hsame x hx).trans (Node.layout_put_of_outside none d.top hx).symm)

/-- A path reaches the free place that it leads to. -/
theorem reaches_of_resolve (h : d.resolve true p = .ok ⟨l, none⟩) (hl : l ≠ []) :
    d.Reaches p l := by
  have hnone : ({ d with top := d.top.put none l } : Disk).top.layout l = none := by
    simpa using Node.layout_put_none hl d.top []
  rw [Reaches, resolve_of_free h { d with top := d.top.put none l } rfl
    (fun x hx => Node.layout_put_of_outside none d.top hx) (Or.inl hnone),
    Node.layout_eq_none.mp hnone]

/-- What is stored at a place that a path reaches leaves it there. -/
theorem Reaches.put (h : d.Reaches p l) {x : Location} (hx : l <+: x) (new : Option Node) :
    ({ d with top := d.top.put new x } : Disk).Reaches p l :=
  h.congr rfl fun _ hy => Node.layout_put_of_outside new d.top fun hp => hy (hx.trans hp)

end Disk

end Scaffold
