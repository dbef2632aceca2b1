import Scaffold.Proofs.Disk.Listing
import Mathlib.Data.String.Basic

/-!
# Proper trees

A tree is `Proper` when each of its directories lists proper names in ascending order. Such a
tree may have links. There is one such tree with a given layout (`Proper.ext`). Storing a proper
node under a proper name keeps it proper (`Proper.put`), and a path that leads to a free place
leads into a directory, under a proper name (`exists_of_resolve_eq_none`).

A walk from a directory in a proper tree comes by what paths below the directory lead to, along
links as well (`isSound_walkFrom`).
-/

set_option linter.unusedSectionVars false

namespace Scaffold

open Scaffold.Path

/-! ## Sorted tables -/

namespace Entries

variable {α : Type}

/-- What is in a table after storing is the new entry or was there before. -/
theorem eq_or_mem_of_mem_insert {name : String} {value : α} {t : Entries α} {e : String × α}
    (h : e ∈ insert name value t) : e = (name, value) ∨ e ∈ t := by
  fun_induction insert name value t with
  | case1 => simpa using h
  | case2 v rest =>
    rcases List.mem_cons.mp h with h | h
    · exact Or.inl h
    · exact Or.inr (List.mem_cons_of_mem _ h)
  | case3 k v rest hk hlt => exact List.mem_cons.mp h
  | case4 k v rest hk hlt ih =>
    rcases List.mem_cons.mp h with rfl | h
    · exact Or.inr List.mem_cons_self
    · exact (ih h).imp_right (List.mem_cons_of_mem _)

/-- Storing keeps the names in ascending order. -/
theorem pairwise_insert (name : String) (value : α) {t : Entries α}
    (h : (t.map Prod.fst).Pairwise (· < ·)) :
    ((insert name value t).map Prod.fst).Pairwise (· < ·) := by
  fun_induction insert name value t with
  | case1 => simp
  | case2 v rest => exact h
  | case3 k v rest hk hlt =>
    rw [List.map_cons, List.pairwise_cons]
    refine ⟨fun k' hk' => ?_, h⟩
    rcases List.mem_cons.mp hk' with rfl | hk'
    · exact hlt
    · exact hlt.trans ((List.pairwise_cons.mp h).1 k' hk')
  | case4 k v rest hk hlt ih =>
    rw [List.map_cons, List.pairwise_cons] at h ⊢
    refine ⟨fun k' hk' => ?_, ih h.2⟩
    obtain ⟨e, he, rfl⟩ := List.mem_map.mp hk'
    rcases eq_or_mem_of_mem_insert he with rfl | he
    · exact lt_of_le_of_ne (not_lt.mp hlt) hk
    · exact h.1 e.1 (List.mem_map_of_mem he)

end Entries

namespace Disk

namespace Node

/-! ## Proper trees -/

/-- A tree where each directory has entries with proper names in ascending order. -/
inductive Proper : Node → Prop
  | file (bytes : ByteArray) (executable : Bool) : Proper (.file bytes executable)
  | link (target : String) : Proper (.link target)
  | dir {entries : List (String × Node)} : (entries.map Prod.fst).Pairwise (· < ·) →
    (∀ e ∈ entries, IsName e.1) → (∀ e ∈ entries, Proper e.2) → Proper (.dir entries)

theorem proper_emptyDir : (Node.dir []).Proper := .dir .nil (by simp) (by simp)

theorem Proper.get?_iff {entries : List (String × Node)} (h : (Node.dir entries).Proper)
    {name : String} {n : Node} : Entries.get? name entries = some n ↔ (name, n) ∈ entries := by
  cases h with
  | dir hsorted _ _ => exact get?_eq_some_iff (hsorted.imp ne_of_lt)

/-- What is in a proper tree is proper. -/
theorem Proper.at? {n m : Node} {l : Location} (h : n.Proper) (hm : n.at? l = some m) :
    m.Proper := by
  induction l generalizing n with
  | nil =>
    obtain rfl := Option.some.inj hm
    exact h
  | cons name l ih =>
    rw [Node.at?, child?, Option.bind_eq_some_iff] at hm
    obtain ⟨c, hc, hm⟩ := hm
    cases n with
    | file bytes executable => cases hc
    | link target => cases hc
    | dir entries =>
      have he := h.get?_iff.mp hc
      cases h with
      | dir _ _ hproper => exact ih (hproper _ he) hm

/-- An entry of a proper directory is found under its name, which is proper. -/
theorem Proper.mem_entries {n : Node} (h : n.Proper) {l : Location}
    {entries : List (String × Node)} (hl : n.at? l = some (.dir entries)) {e : String × Node}
    (he : e ∈ entries) : IsName e.1 ∧ n.at? (l ++ [e.1]) = some e.2 := by
  have hdir := h.at? hl
  rw [at?_concat_dir e.1 hl]
  refine ⟨?_, hdir.get?_iff.mpr he⟩
  cases hdir with
  | dir _ hnames _ => exact hnames e he

theorem proper_insert {entries : List (String × Node)} (h : (Node.dir entries).Proper)
    {name : String} (hname : IsName name) {n : Node} (hn : n.Proper) :
    (Node.dir (Entries.insert name n entries)).Proper := by
  cases h with
  | dir hsorted hnames hproper =>
    refine .dir (Entries.pairwise_insert name n hsorted) (fun e he => ?_) fun e he => ?_
    · rcases Entries.eq_or_mem_of_mem_insert he with rfl | he
      · exact hname
      · exact hnames e he
    · rcases Entries.eq_or_mem_of_mem_insert he with rfl | he
      · exact hn
      · exact hproper e he

/-- Storing a proper node under a proper name keeps a tree proper. -/
theorem Proper.put {new : Node} (hnew : new.Proper) :
    ∀ {l : Location} {n : Node}, n.Proper → (∀ name, l.getLast? = some name → IsName name) →
      (Node.put (some new) l n).Proper
  | [], _, _, _ => hnew
  | [_], .file .., h, _ => h
  | [_], .link _, h, _ => h
  | [name], .dir _, h, hl => proper_insert h (hl name rfl) hnew
  | _ :: _ :: _, .file .., h, _ => h
  | _ :: _ :: _, .link _, h, _ => h
  | name :: next :: rest, .dir entries, h, hl => by
    cases hc : Entries.get? name entries with
    | none =>
      rw [Node.put, hc]
      · exact h
      · exact List.cons_ne_nil next rest
    | some c =>
      have he := h.get?_iff.mp hc
      have hnext : c.Proper ∧ IsName name := by
        cases h with
        | dir _ hnames hproper => exact ⟨hproper _ he, hnames _ he⟩
      rw [put_cons (List.cons_ne_nil next rest) hc]
      refine proper_insert h hnext.2 (Proper.put hnew hnext.1 fun last hlast => hl last ?_)
      rwa [List.getLast?_cons_cons]

/-- A proper tree without links is plain. -/
theorem Proper.plain {n : Node} (h : n.Proper)
    (hfree : ∀ r target, n.layout r ≠ some (.link target)) : n.Plain := by
  induction h with
  | file bytes executable => exact .file bytes executable
  | link target => exact (hfree [] target rfl).elim
  | @dir entries hsorted hnames hproper ih =>
    refine .dir (hsorted.imp ne_of_lt) hnames fun e he => ih e he fun r target hr => ?_
    have hget := (Proper.dir hsorted hnames hproper).get?_iff.mpr he
    exact hfree (e.1 :: r) target ((layout_cons e.1 r entries _).mpr ⟨e.2, hget, hr⟩)

/-- Proper directories that have the same under each name are the same. -/
theorem Proper.entries_eq {entries entries' : List (String × Node)}
    (h : (Node.dir entries).Proper) (h' : (Node.dir entries').Proper)
    (hget : ∀ name, Entries.get? name entries = Entries.get? name entries') :
    entries = entries' := by
  have hmem (e : String × Node) : e ∈ entries ↔ e ∈ entries' := by
    rw [← h.get?_iff, ← h'.get?_iff, hget]
  cases h with
  | dir hsorted _ _ =>
    cases h' with
    | dir hsorted' _ _ =>
      have hnodup {l : List (String × Node)} (hl : (l.map Prod.fst).Pairwise (· < ·)) : l.Nodup :=
        .of_map Prod.fst (hl.imp ne_of_lt)
      refine List.Perm.eq_of_pairwise (fun a b _ _ hab hba => ?_)
        (List.pairwise_map.mp hsorted) (List.pairwise_map.mp hsorted')
        ((List.perm_ext_iff_of_nodup (hnodup hsorted) (hnodup hsorted')).mpr hmem)
      exact (lt_asymm hab hba).elim

/-- Proper trees with the same layout are the same. -/
theorem Proper.ext {m n : Node} (hm : m.Proper) (hn : n.Proper) (h : m.layout = n.layout) :
    m = n := by
  have htop : m.item = n.item := Option.some.inj (congrFun h [])
  induction hm generalizing n with
  | file bytes executable => exact (item_eq_file.mp htop.symm).symm
  | link target => exact (item_eq_link.mp htop.symm).symm
  | @dir entries hsorted hnames hproper ih =>
    obtain ⟨entries', rfl⟩ := item_eq_dir.mp htop.symm
    have hdir : (Node.dir entries).Proper := .dir hsorted hnames hproper
    rw [hdir.entries_eq hn fun name => ?_]
    have hbelow (es : List (String × Node)) (r : Location) :
        (Node.dir es).layout (name :: r) = (Entries.get? name es).bind (·.layout r) := by
      rw [layout, Node.at?, child?, Node.entries, Option.map_bind]
      rfl
    have hrest (r : Location) := congrFun h (name :: r)
    simp only [hbelow] at hrest
    cases hc : Entries.get? name entries with
    | none =>
      cases hc' : Entries.get? name entries' with
      | none => rfl
      | some c' => simpa [hc, hc', layout, at?_nil] using hrest []
    | some c =>
      cases hc' : Entries.get? name entries' with
      | none => simpa [hc, hc', layout, at?_nil] using hrest []
      | some c' =>
        simp only [hc, hc', Option.bind_some] at hrest
        have hc'' : c'.Proper := hn.at? (l := [name]) (by rw [Node.at?, child?, Node.entries, hc']; rfl)
        exact congrArg some
          (ih _ (hdir.get?_iff.mp hc) hc'' (funext hrest) (Option.some.inj (hrest [])))

end Node

/-! ## Free places -/

/-- A step to a name is one to a proper name. -/
theorem isName_of_mem_stepsOf {text n : String} (h : Step.name n ∈ (stepsOf text).2) :
    IsName n := by
  rw [stepsOf] at h
  dsimp only at h
  split at h
  · cases h
  · obtain ⟨piece, hmem, hp⟩ := List.mem_map.mp h
    rw [stepOf_eq] at hp
    cases hpart : partOf? piece with
    | none =>
      rw [hpart] at hp
      cases hp
    | some c =>
      have hc := isStep_of_partOf? (Text.not_mem_of_mem_pieces hmem) hpart
      rw [hpart] at hp
      cases c with
      | name m =>
        obtain rfl := Step.name.inj hp
        exact hc
      | up => cases hp
      | root | here => exact hc.elim

/-- Where a walk leads to nothing, a proper name could stand in a directory. -/
theorem exists_of_walk_eq_none {top : Node} {followLast : Bool} {links : Nat} {cur l : Location}
    {steps : List Step} (hsteps : ∀ n, Step.name n ∈ steps → IsName n)
    (hcur : steps = [] → top.layout cur ≠ none)
    (h : walk top followLast links cur steps = .ok ⟨l, none⟩) :
    ∃ above n, l = above ++ [n] ∧ IsName n ∧ top.layout above = some .dir ∧
      top.layout l = none := by
  induction links generalizing cur steps with
  | zero => cases h
  | succ links ihl =>
    induction steps generalizing cur with
    | nil =>
      obtain ⟨rfl, hn⟩ := Found.mk.inj (Except.ok.inj h)
      exact (hcur rfl (Node.layout_eq_none.mpr hn)).elim
    | cons step rest ihs =>
      have hrest : ∀ n, Step.name n ∈ rest → IsName n := fun n hn =>
        hsteps n (List.mem_cons_of_mem step hn)
      rw [walk_cons] at h
      split at h
      · rename_i hdir
        exact ihs hrest (fun _ => by simp [hdir]) h
      · rename_i hdir
        have hup := Node.layout_above hdir (List.dropLast_prefix cur)
        exact ihs hrest (fun _ => by simp [hup]) h
      · rename_i n hdir
        split at h
        · rename_i hnone
          split at h
          · obtain ⟨rfl, -⟩ := Found.mk.inj (Except.ok.inj h)
            exact ⟨cur, n, rfl, hsteps n List.mem_cons_self, hdir, hnone⟩
          · cases h
        · rename_i target hlink
          split at h
          · simp at h
          · rw [follower] at h
            split at h
            · cases h
            · refine ihl (fun m hm => ?_) (fun hnil => ?_) h
              · exact (List.mem_append.mp hm).elim isName_of_mem_stepsOf (hrest m)
              -- A target without steps is the top, and one with a start of its own is not empty.
              · split
                · have htop := Node.layout_above hdir (List.nil_prefix (l := cur))
                  simp [htop]
                · simp [hdir]
        · rename_i i hi hsome
          exact ihs hrest (fun _ => by simp [hsome]) h
      · cases h
      · cases h

/-- A free place that a path leads to is one for a proper name in a directory. -/
theorem exists_of_resolve_eq_none {d : Disk} {followLast : Bool} {p : Path} {l : Location}
    (h : d.resolve followLast p = .ok ⟨l, none⟩) :
    ∃ above n, l = above ++ [n] ∧ IsName n ∧ d.top.layout above = some .dir ∧
      d.top.layout l = none := by
  have hp := text_ne_of_resolve h
  rw [resolve_eq d followLast hp] at h
  refine exists_of_walk_eq_none (fun n => isName_of_mem_stepsOf) (fun hnil => ?_) h
  have hroot := (stepsOf_fst p).mp (stepsOf_fst_of_snd hp hnil)
  rw [origin, if_pos hroot]
  simp [Node.layout, Node.at?_nil]

/-! ## Walks -/

/-- What a walk has come to : the names that lead there from its start, the location and the
node. A node that is no link is what the path leads to. -/
structure Reached (d : Disk) (p : Path) (names : List String) (location : Location) (path : Path)
    (n : Node) : Prop where
  isName : ∀ name ∈ names, IsName name
  path_eq : path = p.joinAll names
  stat_eq : (∀ target, n ≠ .link target) → d.stat path = .ok (location, n)

/-- Whether what a walk comes by is what paths below its start lead to. -/
def IsSound (d : Disk) (p : Path) (vs : List (Except Fault Visit)) : Prop :=
  ∀ v, .ok v ∈ vs → (∀ name ∈ v.names, IsName name) ∧
    ∃ l n, d.stat (p.joinAll v.names) = .ok (l, n) ∧ n.isDir = v.isDir

variable {d : Disk} {p : Path}

/-- The entries of a directory that was reached are reached under their names. -/
theorem Reached.entry (hd : d.top.Proper) {names : List String} {location : Location}
    {path : Path} {entries : List (String × Node)}
    (h : Reached d p names location path (.dir entries)) {e : String × Node} (he : e ∈ entries) :
    Reached d p (names ++ [e.1]) (location ++ [e.1]) (path.join e.1) e.2 := by
  have hstat := h.stat_eq (by simp)
  obtain ⟨hname, hat⟩ := hd.mem_entries (at?_of_stat hstat) he
  refine ⟨?_, ?_, fun hlink => ?_⟩
  · exact List.forall_mem_append.mpr ⟨h.isName, by simpa using hname⟩
  · rw [h.path_eq, joinAll_concat]
  · have hleads := leads_of_stat hstat rfl
    have hjoin := resolve_join d true path (c := .name e.1) hname
    have hnolink : ∀ target, d.top.layout (location ++ [e.1]) ≠ some (.link target) := by
      intro target hl
      rw [Node.layout_eq_link, hat] at hl
      exact hlink target (Option.some.inj hl)
    rw [hleads.follow_name hname true hnolink, hat] at hjoin
    exact stat_eq_ok.mpr hjoin

theorem isSound_append {vs ws : List (Except Fault Visit)} (hv : IsSound d p vs)
    (hw : IsSound d p ws) : IsSound d p (vs ++ ws) := fun v h =>
  (List.mem_append.mp h).elim (hv v) (hw v)

theorem isSound_error (f : Fault) : IsSound d p [.error f] := by
  intro v h
  simp at h

theorem isSound_visit {names : List String} (hnames : ∀ name ∈ names, IsName name) {l : Location}
    {n : Node} (h : d.stat (p.joinAll names) = .ok (l, n)) :
    IsSound d p [.ok ⟨names, n.isDir⟩] := by
  intro v hv
  obtain rfl := Except.ok.inj (List.mem_singleton.mp hv)
  exact ⟨hnames, l, n, h, rfl⟩

section

variable {enter : Enter} (hd : d.top.Proper)
  (henter : ∀ inside names location path n, Reached d p names location path n →
    n.isDir = true → IsSound d p (enter inside names location path n))

include hd henter

mutual

/-- A walk through a node that was reached is sound, when it is sound behind links. -/
theorem isSound_visitNode : ∀ (n : Node) (inside : Inside) {names : List String}
    {location : Location} {path : Path}, Reached d p names location path n →
      IsSound d p (visitNode d enter inside names location path n)
  | .file bytes executable, inside, names, location, path, h => by
    rw [visitNode]
    have hstat := h.stat_eq (by simp)
    rw [h.path_eq] at hstat
    exact isSound_visit h.isName hstat
  | .dir entries, inside, names, location, path, h => by
    rw [visitNode]
    have hstat := h.stat_eq (by simp)
    rw [h.path_eq] at hstat
    exact isSound_append (isSound_visit h.isName hstat)
      (isSound_visitEntries entries _ fun e he => h.entry hd he)
  | .link target, inside, names, location, path, h => by
    rw [visitNode]
    split
    · exact isSound_error _
    · rename_i l n hstat
      split
      · rename_i hdir
        split
        · exact isSound_error _
        · exact henter _ _ _ _ _ ⟨h.isName, h.path_eq, fun _ => hstat⟩ hdir
      · rename_i hdir
        rw [h.path_eq] at hstat
        have hv := isSound_visit h.isName hstat
        rwa [Bool.eq_false_of_not_eq_true hdir] at hv

theorem isSound_visitEntries : ∀ (entries : List (String × Node)) (inside : Inside)
    {names : List String} {location : Location} {path : Path},
      (∀ e ∈ entries, Reached d p (names ++ [e.1]) (location ++ [e.1]) (path.join e.1) e.2) →
      IsSound d p (visitEntries d enter inside names location path entries)
  | [], inside, names, location, path, _ => by
    intro v hv
    cases hv
  | (name, n) :: rest, inside, names, location, path, h => by
    rw [visitEntries]
    exact isSound_append (isSound_visitNode n _ (h _ List.mem_cons_self))
      (isSound_visitEntries rest _ fun e he => h e (List.mem_cons_of_mem _ he))

end

end

/-- A walk over any number of links is sound. -/
theorem isSound_visitLinks (hd : d.top.Proper) (links : Nat) (inside : Inside)
    {names : List String} {location : Location} {path : Path} {n : Node}
    (h : Reached d p names location path n) :
    IsSound d p (visit d links inside names location path n) := by
  induction links generalizing inside names location path n with
  | zero => exact isSound_error _
  | succ links ih =>
    rw [visit]
    exact isSound_visitNode hd (fun inside _ _ _ _ hr _ => ih inside hr) n inside h

/-- What a walk comes by is what paths below its start lead to, when the start leads anywhere. -/
theorem isSound_walkFrom (hd : d.top.Proper) {l : Location} {n : Node}
    (h : d.stat p = .ok (l, n)) : IsSound d p (walkFrom d p) := by
  obtain ⟨l', n', hls, hlink⟩ := exists_linkStat_of_stat h
  rw [walkFrom, hls]
  refine isSound_visitLinks hd _ [] ⟨by simp, rfl, fun hno => ?_⟩
  rcases hlink with ⟨target, rfl⟩ | ⟨rfl, rfl⟩
  · exact (hno target rfl).elim
  · exact h

end Disk

end Scaffold
