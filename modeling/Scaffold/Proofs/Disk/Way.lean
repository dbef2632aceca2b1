import Scaffold.Proofs.Disk.Walk
import Scaffold.Proofs.Path.Parts

/-!
# Where the parts of a path lead

A path is followed piece by piece, but its parts say where it leads. `follow` is the walk along
the parts. A path that ends in a name leads where its parts lead (`resolve_join`), and any path
does that leads to a directory (`follow_of_stat`, `resolve_of_follow`).

`Leads` says that parts lead to a directory. One more name leads into it (`follow_name`).
-/

namespace Scaffold

open Scaffold.Path

namespace Disk

/-- The step that a part of a path stands for, if it is one. -/
def stepOfPart? : Part → Option Step
  | .up => some .up
  | .name n => some (.name n)
  | _ => none

/-- The steps that parts stand for. -/
def stepsOfParts (ps : List Part) : List Step := ps.filterMap stepOfPart?

/-- Where the walk along some parts starts. -/
def origin (d : Disk) (ps : List Part) : Location :=
  if ps.head? = some .root then [] else d.here

/-- What parts lead to. -/
def follow (d : Disk) (followLast : Bool) (ps : List Part) : Except Fault Found :=
  walk d.top followLast (maxLinks + 1) (d.origin ps) (stepsOfParts ps)

/-- Whether parts lead to a directory at a location. -/
def Leads (d : Disk) (ps : List Part) (l : Location) : Prop :=
  ∃ entries, d.follow true ps = .ok ⟨l, some (.dir entries)⟩

/-! ## Steps and parts -/

theorem stepOf_eq (piece : List Char) :
    stepOf piece = ((partOf? piece).bind stepOfPart?).getD .here := by
  unfold partOf?
  split
  · rfl
  · rfl
  · rfl
  · rename_i hempty hdot hup
    exact stepOf.eq_4 piece hempty hdot hup

theorem dropDots_map_stepOf (pieces : List (List Char)) :
    dropDots (pieces.map stepOf) = stepsOfParts (pieces.filterMap partOf?) := by
  induction pieces with
  | nil => rfl
  | cons piece pieces ih =>
    rw [List.map_cons, stepOf_eq]
    cases hp : partOf? piece with
    | none => simpa [hp] using ih
    | some c =>
      rw [List.filterMap_cons_some hp]
      cases c with
      | root | here => simpa [stepsOfParts, List.filterMap_cons, stepOfPart?] using ih
      | up => simpa [stepsOfParts, stepOfPart?] using ih
      | name n => simpa [stepsOfParts, stepOfPart?] using ih

theorem bodyOf_dropWhile (text : List Char) : bodyOf (text.dropWhile (· = '/')) = bodyOf text := by
  induction text with
  | nil => rfl
  | cons c text ih =>
    by_cases hc : c = '/'
    · subst hc
      rw [List.dropWhile_cons_of_pos (by simp), ih]
      rfl
    · rw [List.dropWhile_cons_of_neg (by simpa using hc)]

theorem stepsOfParts_startOf (text : List Char) : stepsOfParts (startOf text) = [] := by
  unfold startOf
  split
  · rfl
  · split <;> rfl

theorem head?_bodyOf_ne (text : List Char) : (bodyOf text).head? ≠ some .root := by
  intro h
  exact isStep_of_mem_bodyOf (List.mem_of_head? h)

/-- The steps of a path are those of its parts, but for the dots. -/
theorem dropDots_stepsOf (p : Path) : dropDots (stepsOf p.text).2 = stepsOfParts p.parts := by
  rw [parts, partsOf_eq, stepsOfParts, List.filterMap_append]
  change _ = stepsOfParts _ ++ stepsOfParts _
  rw [stepsOfParts_startOf, List.nil_append, ← bodyOf_dropWhile, stepsOf]
  generalize p.text.toList.dropWhile (· = '/') = rest
  dsimp only
  split
  · rename_i hrest
    rw [List.isEmpty_iff.mp hrest]
    rfl
  · exact dropDots_map_stepOf _

theorem stepsOf_fst (p : Path) : (stepsOf p.text).1 = true ↔ p.parts.head? = some .root := by
  rw [stepsOf, parts, partsOf_eq, decide_eq_true_iff]
  cases p.text.toList with
  | nil => exact iff_of_false (by simp) (by decide)
  | cons c cs =>
    by_cases hc : c = '/'
    · subst hc
      exact iff_of_true rfl rfl
    · refine iff_of_false (by simpa using hc) fun h => ?_
      have hstart : startOf (c :: cs) =
          if (Text.pieces '/' (c :: cs)).head? = some ['.'] then [.here] else [] := by
        simp [startOf, hc]
      rw [hstart] at h
      split at h
      · simp at h
      · exact head?_bodyOf_ne _ h

/-- A path is resolved by a walk from the start of its parts. -/
theorem resolve_eq (d : Disk) (followLast : Bool) {p : Path} (hp : p.text ≠ "") :
    d.resolve followLast p =
      walk d.top followLast (maxLinks + 1) (d.origin p.parts) (stepsOf p.text).2 := by
  unfold resolve origin
  rw [if_neg (by simpa using hp)]
  by_cases hroot : p.parts.head? = some .root
  · simp [(stepsOf_fst p).mpr hroot, hroot]
  · have hfst : (stepsOf p.text).1 = false := by
      rw [← Bool.not_eq_true]
      exact fun h => hroot ((stepsOf_fst p).mp h)
    simp [hfst, hroot]

theorem getLast?_pieces_dropWhile (text : List Char) :
    (Text.pieces '/' (text.dropWhile (· = '/'))).getLast? = (Text.pieces '/' text).getLast? := by
  induction text with
  | nil => rfl
  | cons c text ih =>
    by_cases hc : c = '/'
    · subst hc
      obtain ⟨piece, more, hp⟩ := List.exists_cons_of_ne_nil (Text.pieces_ne_nil '/' text)
      rw [List.dropWhile_cons_of_pos (by simp), ih, Text.pieces, if_pos rfl, hp,
        List.getLast?_cons_cons]
    · rw [List.dropWhile_cons_of_neg (by simpa using hc)]

/-- A path that ends in a name or in a double dot does not end in a dot. -/
theorem getLast?_stepsOf_join (p : Path) {c : Part} (h : c.IsStep) :
    (stepsOf (p.join c.text).text).2.getLast? ≠ some .here := by
  have hlast : (Text.pieces '/' (p.join c.text).text.toList).getLast? = some c.text.toList := by
    have hc := Text.pieces_of_not_mem (not_mem_text h)
    obtain ⟨a, ha, hcases⟩ := exists_toList_join p h
    rw [ha]
    rcases hcases with ⟨-, rfl⟩ | ⟨-, rfl⟩ | ⟨-, b, rfl⟩
    · rw [List.nil_append, hc]
      rfl
    · rw [List.append_assoc, List.singleton_append, Text.pieces_append_mark, hc]
      exact List.getLast?_concat
    · rw [List.append_assoc, List.singleton_append, Text.pieces_append_mark, hc]
      exact List.getLast?_concat
  rw [stepsOf]
  dsimp only
  split
  · simp
  · rw [List.getLast?_map, getLast?_pieces_dropWhile, hlast, Option.map_some, stepOf_eq,
      partOf?_text h]
    cases c with
    | up | name n => simp [stepOfPart?]
    | root | here => exact h.elim

theorem text_join_ne (p : Path) {c : Part} (h : c.IsStep) : (p.join c.text).text ≠ "" := by
  intro hn
  have hparts := parts_join p h
  rw [parts, hn] at hparts
  exact List.append_ne_nil_of_right_ne_nil p.parts (List.cons_ne_nil c []) hparts.symm

/-! ## What a path leads to -/

/-- A path that ends in a name or in a double dot leads where its parts lead. -/
theorem resolve_join (d : Disk) (followLast : Bool) (p : Path) {c : Part} (h : c.IsStep) :
    d.resolve followLast (p.join c.text) = d.follow followLast (p.parts ++ [c]) := by
  rw [resolve_eq d followLast (text_join_ne p h),
    ← walk_dropDots _ _ _ _ (getLast?_stepsOf_join p h), dropDots_stepsOf, parts_join p h]
  rfl

theorem stat_eq_ok {d : Disk} {p : Path} {l : Location} {n : Node} :
    d.stat p = .ok (l, n) ↔ d.resolve true p = .ok ⟨l, some n⟩ := by
  unfold stat
  cases hr : d.resolve true p with
  | error f => exact iff_of_false (fun h => by cases h) (fun h => by cases h)
  | ok found =>
    obtain ⟨l', n'⟩ := found
    cases n' with
    | none => exact iff_of_false (fun h => by cases h) (fun h => by cases h)
    | some n' =>
      constructor
      · intro h
        obtain ⟨rfl, rfl⟩ := Prod.mk.inj (Except.ok.inj h)
        rfl
      · intro h
        obtain ⟨rfl, hn⟩ := Found.mk.inj (Except.ok.inj h)
        obtain rfl := Option.some.inj hn
        rfl

theorem text_ne_of_resolve {d : Disk} {followLast : Bool} {p : Path} {found : Found}
    (h : d.resolve followLast p = .ok found) : p.text ≠ "" := by
  intro hp
  unfold resolve at h
  rw [if_pos (by simpa using hp)] at h
  cases h

/-- What a path leads to its parts lead to. -/
theorem follow_of_stat {d : Disk} {p : Path} {l : Location} {n : Node}
    (h : d.stat p = .ok (l, n)) : d.follow true p.parts = .ok ⟨l, some n⟩ := by
  have hr := stat_eq_ok.mp h
  rw [resolve_eq d true (text_ne_of_resolve hr)] at hr
  rw [follow, ← dropDots_stepsOf]
  exact walk_dropDots_of_some hr

theorem at?_of_stat {d : Disk} {p : Path} {l : Location} {n : Node} (h : d.stat p = .ok (l, n)) :
    d.top.at? l = some n := (walk_node (follow_of_stat h)).symm

/-- A path that leads to something leads to it, or to a link, when the last link is not
followed. -/
theorem exists_linkStat_of_stat {d : Disk} {p : Path} {l : Location} {n : Node}
    (h : d.stat p = .ok (l, n)) :
    ∃ l' n', d.linkStat p = .ok (l', n') ∧ ((∃ target, n' = .link target) ∨ l' = l ∧ n' = n) := by
  have hr := stat_eq_ok.mp h
  have hp := text_ne_of_resolve hr
  rw [resolve_eq d true hp] at hr
  obtain ⟨l', n', hfalse, hlink⟩ := exists_walk_false hr
  refine ⟨l', n', ?_, hlink⟩
  unfold linkStat
  rw [resolve_eq d false hp, hfalse]
  rfl

/-- A path leads to the directory that its parts lead to. -/
theorem resolve_of_follow {d : Disk} {p : Path} (hp : p.text ≠ "") {l : Location}
    {entries : List (String × Node)} (h : d.follow true p.parts = .ok ⟨l, some (.dir entries)⟩) :
    d.resolve true p = .ok ⟨l, some (.dir entries)⟩ := by
  rw [resolve_eq d true hp]
  rw [follow, ← dropDots_stepsOf] at h
  exact walk_of_dropDots h

/-- When a path leads to a free place, its parts do. -/
theorem follow_of_resolve_none {d : Disk} {followLast : Bool} {p : Path} {l : Location}
    (h : d.resolve followLast p = .ok ⟨l, none⟩) :
    d.follow followLast p.parts = .ok ⟨l, none⟩ := by
  rw [resolve_eq d followLast (text_ne_of_resolve h)] at h
  rw [follow, ← dropDots_stepsOf]
  exact walk_dropDots_of_none h

/-- Where a path leads its parts lead. -/
theorem follow_of_resolve {d : Disk} {p : Path} {found : Found}
    (h : d.resolve true p = .ok found) : d.follow true p.parts = .ok found := by
  obtain ⟨l, n⟩ := found
  cases n with
  | none => exact follow_of_resolve_none h
  | some n => exact follow_of_stat (stat_eq_ok.mpr h)

theorem stepsOf_fst_of_snd {p : Path} (hp : p.text ≠ "") (h : (stepsOf p.text).2 = []) :
    (stepsOf p.text).1 = true := by
  rw [stepsOf] at h ⊢
  dsimp only at h ⊢
  split at h
  · rename_i hrest
    have hall := List.dropWhile_eq_nil_iff.mp (List.isEmpty_iff.mp hrest)
    cases hcs : p.text.toList with
    | nil => exact absurd (String.toList_eq_nil_iff.mp hcs) hp
    | cons c cs =>
      have hc := hall c (by simp [hcs])
      simpa using hc
  · exact absurd (List.map_eq_nil_iff.mp h) (Text.pieces_ne_nil _ _)

/-- A path without names and double dots does not lead to a free place. -/
theorem resolve_ne_none_of_stepsOfParts {d : Disk} {followLast : Bool} {p : Path} {l : Location}
    (hnil : stepsOfParts p.parts = []) : d.resolve followLast p ≠ .ok ⟨l, none⟩ := by
  intro h
  have hp := text_ne_of_resolve h
  rw [resolve_eq d followLast hp] at h
  rw [← dropDots_stepsOf] at hnil
  have hs : (stepsOf p.text).2 = [] := by
    by_contra hne
    exact dropDots_ne_nil hne (getLast?_of_walk_none h) hnil
  have hroot := (stepsOf_fst p).mp (stepsOf_fst_of_snd hp hs)
  rw [hs, origin, if_pos hroot] at h
  cases (Found.mk.inj (Except.ok.inj h)).2

/-! ## Directories -/

theorem leads_of_stat {d : Disk} {p : Path} {l : Location} {n : Node} (h : d.stat p = .ok (l, n))
    (hn : n.isDir = true) : d.Leads p.parts l := by
  obtain ⟨entries, rfl⟩ := Node.isDir_eq_true.mp hn
  exact ⟨entries, follow_of_stat h⟩

theorem exists_leads_of_isDir {d : Disk} {p : Path} (h : d.isDir p = true) :
    ∃ l, d.Leads p.parts l := by
  unfold isDir at h
  cases hs : d.stat p with
  | error f =>
    rw [hs] at h
    cases h
  | ok found =>
    rw [hs] at h
    exact ⟨found.1, leads_of_stat hs h⟩

/-- Parts lead to one location. -/
theorem Leads.unique {d : Disk} {ps : List Part} {l l' : Location} (h : d.Leads ps l)
    (h' : d.Leads ps l') : l = l' := by
  obtain ⟨entries, h⟩ := h
  obtain ⟨entries', h'⟩ := h'
  rw [h] at h'
  exact (Found.mk.inj (Except.ok.inj h')).1

theorem Leads.layout {d : Disk} {ps : List Part} {l : Location} (h : d.Leads ps l) :
    d.top.layout l = some .dir := by
  obtain ⟨entries, h⟩ := h
  exact Node.layout_eq_dir.mpr ⟨entries, (walk_node h).symm⟩

/-- Parts that lead to something lead to the same location when more is stored. -/
theorem follow_of_grows {d d' : Disk} (hg : d.top.layout.Grows d'.top.layout)
    (hhere : d'.here = d.here) {ps : List Part} {l : Location} {n : Node}
    (h : d.follow true ps = .ok ⟨l, some n⟩) : d'.follow true ps = .ok ⟨l, d'.top.at? l⟩ := by
  rw [follow, origin, hhere]
  exact walk_of_grows hg h

/-- Parts lead to the same directory when more is stored. -/
theorem Leads.of_grows {d d' : Disk} (hg : d.top.layout.Grows d'.top.layout)
    (hhere : d'.here = d.here) {ps : List Part} {l : Location} (h : d.Leads ps l) :
    d'.Leads ps l := by
  obtain ⟨entries', hnew⟩ := Node.layout_eq_dir.mp (hg.dir h.layout)
  obtain ⟨entries, h⟩ := h
  exact ⟨entries', by rw [follow_of_grows hg hhere h, hnew]⟩

/-! ## One more part -/

theorem origin_append (d : Disk) (ps : List Part) {c : Part} (h : c.IsStep) :
    d.origin (ps ++ [c]) = d.origin ps := by
  cases ps with
  | nil =>
    cases c with
    | up | name n => rfl
    | root | here => exact h.elim
  | cons first ps => rfl

theorem exists_stepOfPart? {c : Part} (h : c.IsStep) : ∃ step, stepOfPart? c = some step := by
  cases c with
  | up | name n => exact ⟨_, rfl⟩
  | root | here => exact h.elim

theorem stepsOfParts_append {ps : List Part} {c : Part} {step : Step}
    (h : stepOfPart? c = some step) : stepsOfParts (ps ++ [c]) = stepsOfParts ps ++ [step] := by
  simp [stepsOfParts, h]

/-- Parts that lead anywhere lead to a directory but for the last one. -/
theorem exists_leads_of_follow {d : Disk} {followLast : Bool} {ps : List Part} {c : Part}
    (hc : c.IsStep) {found : Found} (h : d.follow followLast (ps ++ [c]) = .ok found) :
    ∃ l, d.Leads ps l := by
  obtain ⟨step, hstep⟩ := exists_stepOfPart? hc
  rw [follow, origin_append d ps hc, stepsOfParts_append hstep] at h
  obtain ⟨l, k, hl, hdir, -⟩ := walk_concat_of_ok h
  obtain ⟨entries, he⟩ := Node.layout_eq_dir.mp hdir
  exact ⟨l, entries, by rw [follow, hl, he]⟩

/-- Parts that lead to something do so up to any of them. -/
theorem exists_follow_of_append {d : Disk} {ps rest : List Part} (hrest : ∀ c ∈ rest, c.IsStep)
    {l : Location} {n : Node} (h : d.follow true (ps ++ rest) = .ok ⟨l, some n⟩) :
    ∃ l' n', d.follow true ps = .ok ⟨l', some n'⟩ := by
  induction rest using List.reverseRecOn generalizing l n with
  | nil => exact ⟨l, n, by rwa [List.append_nil] at h⟩
  | append_singleton rest c ih =>
    rw [← List.append_assoc] at h
    obtain ⟨l', entries, hl'⟩ := exists_leads_of_follow (hrest c (by simp)) h
    exact ih (fun c hc => hrest c (List.mem_append_left _ hc)) hl'

/-- What one more part leads to is decided in the directory that the parts lead to. -/
theorem Leads.follow_append {d : Disk} {ps : List Part} {l : Location} (h : d.Leads ps l)
    {c : Part} (hc : c.IsStep) {step : Step} (hstep : stepOfPart? c = some step) :
    ∃ k, ∀ followLast,
      d.follow followLast (ps ++ [c]) = walk d.top followLast (k + 1) l [step] := by
  obtain ⟨entries, h⟩ := h
  rcases walk_append d.top (maxLinks + 1) (d.origin ps) (stepsOfParts ps) with
    ⟨f, hf, -⟩ | ⟨l', k, hl, hmore⟩
  · rw [follow, hf] at h
    cases h
  · rw [follow, hl] at h
    obtain ⟨rfl, -⟩ := Found.mk.inj (Except.ok.inj h)
    refine ⟨k, fun followLast => ?_⟩
    rw [follow, origin_append d ps hc, stepsOfParts_append hstep]
    exact hmore followLast [step] (by simp)

/-- Where one more name leads, when it is not that of a link. -/
theorem Leads.follow_name {d : Disk} {ps : List Part} {l : Location} (h : d.Leads ps l)
    {n : String} (hn : IsName n) (followLast : Bool)
    (hlink : ∀ target, d.top.layout (l ++ [n]) ≠ some (.link target)) :
    d.follow followLast (ps ++ [.name n]) = .ok ⟨l ++ [n], d.top.at? (l ++ [n])⟩ := by
  obtain ⟨k, hk⟩ := h.follow_append (c := .name n) hn rfl
  rw [hk, walk_name, h.layout]
  dsimp only
  split
  · rename_i hnone
    rw [Node.layout_eq_none.mp hnone]
    rfl
  · rename_i target ht
    exact (hlink target ht).elim
  · rfl

/-- A link is found where it is, when the last link is not followed. -/
theorem Leads.follow_link {d : Disk} {ps : List Part} {l : Location} (h : d.Leads ps l)
    {n : String} (hn : IsName n) {target : String}
    (hlink : d.top.layout (l ++ [n]) = some (.link target)) :
    d.follow false (ps ++ [.name n]) = .ok ⟨l ++ [n], some (.link target)⟩ := by
  obtain ⟨k, hk⟩ := h.follow_append (c := .name n) hn rfl
  rw [hk, walk_name, h.layout, hlink]
  rfl

/-! ## Trees without links -/

/-- Where names lead below a directory without links. -/
theorem Leads.eq_append {d : Disk} {ps : List Part} {root : Location}
    (hroot : ∀ l, d.Leads ps l → l = root)
    (hfree : ∀ r target, d.top.layout (root ++ r) ≠ some (.link target)) {names : List String}
    (hnames : ∀ n ∈ names, IsName n) {l : Location}
    (h : d.Leads (ps ++ names.map Part.name) l) : l = root ++ names := by
  induction names using List.reverseRecOn generalizing l with
  | nil =>
    rw [List.append_nil]
    exact hroot l (by simpa using h)
  | append_singleton names n ih =>
    have hn : IsName n := hnames n (by simp)
    obtain ⟨entries, hf⟩ := h
    rw [List.map_append, ← List.append_assoc] at hf
    obtain ⟨above, habove⟩ := exists_leads_of_follow (c := .name n) hn hf
    obtain rfl := ih (fun m hm => hnames m (List.mem_append_left _ hm)) habove
    have hlink : ∀ target, d.top.layout (root ++ names ++ [n]) ≠ some (.link target) := by
      intro target
      rw [List.append_assoc]
      exact hfree _ target
    rw [List.map_cons, List.map_nil, habove.follow_name hn true hlink] at hf
    obtain ⟨rfl, -⟩ := Found.mk.inj (Except.ok.inj hf)
    rw [List.append_assoc]

/-- Where a path with more names leads below a tree without links. -/
theorem resolve_joinAll {d : Disk} {p : Path} {root : Location}
    (hroot : ∀ found, d.follow true p.parts = .ok found → found.location = root)
    (hfree : ∀ r target, d.top.layout (root ++ r) ≠ some (.link target)) {names : List String}
    (hnames : ∀ n ∈ names, IsName n) {found : Found}
    (h : d.resolve true (p.joinAll names) = .ok found) : found.location = root ++ names := by
  have hf := follow_of_resolve h
  rw [parts_joinAll p _ hnames] at hf
  cases names using List.reverseRecOn with
  | nil =>
    rw [List.append_nil]
    exact hroot found (by simpa using hf)
  | append_singleton names m =>
    have hm : IsName m := hnames m (by simp)
    have hnames' : ∀ n ∈ names, IsName n := fun n hn => hnames n (List.mem_append_left _ hn)
    rw [List.map_append, ← List.append_assoc] at hf
    obtain ⟨above, habove⟩ := exists_leads_of_follow (c := .name m) hm hf
    have hdir : ∀ l, d.Leads p.parts l → l = root := fun l ⟨_, hl⟩ => hroot _ hl
    obtain rfl := habove.eq_append hdir hfree hnames'
    have hlink : ∀ target, d.top.layout (root ++ names ++ [m]) ≠ some (.link target) := by
      intro target
      rw [List.append_assoc]
      exact hfree _ target
    rw [List.map_cons, List.map_nil, habove.follow_name hm true hlink] at hf
    obtain rfl := Except.ok.inj hf
    exact List.append_assoc ..

/-- What names lead to below a tree without links. -/
theorem stat_joinAll {d : Disk} {p : Path} {root : Location} {tree : Node}
    (hp : d.stat p = .ok (root, tree)) (hfree : ∀ r target, tree.layout r ≠ some (.link target))
    {names : List String} (hnames : ∀ n ∈ names, IsName n) {l : Location} {n : Node}
    (h : d.stat (p.joinAll names) = .ok (l, n)) :
    l = root ++ names ∧ tree.at? names = some n := by
  have htree := at?_of_stat hp
  obtain rfl : l = root ++ names := by
    refine resolve_joinAll (fun found hfound => ?_) (fun r target => ?_) hnames (stat_eq_ok.mp h)
    · rw [follow_of_stat hp] at hfound
      rw [← Except.ok.inj hfound]
    · rw [Node.layout_append htree]
      exact hfree r target
  have hn := at?_of_stat h
  rw [Node.at?_append, htree] at hn
  exact ⟨rfl, hn⟩

/-- A path leads to the same location when more is stored. -/
theorem stat_of_grows {d d' : Disk} (hg : d.top.layout.Grows d'.top.layout)
    (hhere : d'.here = d.here) {p : Path} {l : Location} {n n' : Node}
    (h : d.stat p = .ok (l, n)) (hn : d'.top.at? l = some n') : d'.stat p = .ok (l, n') := by
  have hr := stat_eq_ok.mp h
  have hp := text_ne_of_resolve hr
  rw [resolve_eq d true hp] at hr
  rw [stat_eq_ok, resolve_eq d' true hp, origin, hhere, ← hn]
  exact walk_of_grows hg hr

theorem exists_at?_of_grows {d d' : Disk} (hg : d.top.layout.Grows d'.top.layout) {l : Location}
    {n : Node} (hn : d.top.at? l = some n) : ∃ n', d'.top.at? l = some n' := by
  have hold : d.top.layout l ≠ none := by
    rw [Node.layout, hn]
    exact Option.some_ne_none _
  have hnew := Layout.Grows.ne_none hg hold
  rw [Ne, Node.layout_eq_none] at hnew
  exact Option.ne_none_iff_exists'.mp hnew

theorem exists_stat_of_grows {d d' : Disk} (hg : d.top.layout.Grows d'.top.layout)
    (hhere : d'.here = d.here) {p : Path} {l : Location} {n : Node} (h : d.stat p = .ok (l, n)) :
    ∃ n', d'.stat p = .ok (l, n') := by
  obtain ⟨n', hn'⟩ := exists_at?_of_grows hg (at?_of_stat h)
  exact ⟨n', stat_of_grows hg hhere h hn'⟩

end Disk

end Scaffold
