import Scaffold.Proofs.Disk.Loop
import Scaffold.Proofs.Disk.Lookup

/-!
# What a path passes

A path passes the locations that it leads through, along links as well, and the one that it leads
to. What is at and below a place that a path does not pass does not matter to where it leads
(`walk_apart`, `AlikeOutside.stat_join`). So a walk does the same at a stop when things were stored
at a place that the path to the stop does not pass (`AlikeOutside.visit`).
-/

namespace Scaffold

open Scaffold.Path

namespace Disk

/-- Whether steps from a location pass a location : they lead through it or to it. -/
inductive Node.Passes (top : Node) : Location → List Step → Location → Prop
  | here {cur : Location} {steps : List Step} : Passes top cur steps cur
  | dot {cur l : Location} {rest : List Step} : top.layout cur = some .dir →
    Passes top cur rest l → Passes top cur (.here :: rest) l
  | up {cur l : Location} {rest : List Step} : top.layout cur = some .dir →
    Passes top cur.dropLast rest l → Passes top cur (.up :: rest) l
  | name {cur l : Location} {n : String} {rest : List Step} : top.layout cur = some .dir →
    (∀ target, top.layout (cur ++ [n]) ≠ some (.link target)) →
    Passes top (cur ++ [n]) rest l → Passes top cur (.name n :: rest) l
  | link {cur l : Location} {n target : String} {rest : List Step} :
    top.layout cur = some .dir → top.layout (cur ++ [n]) = some (.link target) →
    Passes top (if (stepsOf target).1 then [] else cur) ((stepsOf target).2 ++ rest) l →
    Passes top cur (.name n :: rest) l

/-- Whether a path passes a location. -/
def Passes (d : Disk) (p : Path) (l : Location) : Prop :=
  d.top.Passes (d.origin p.parts) (stepsOfParts p.parts) l

theorem stepsOfParts_names (ps : List Part) (names : List String) :
    stepsOfParts (ps ++ names.map Part.name) = stepsOfParts ps ++ names.map Step.name := by
  simp [stepsOfParts, List.filterMap_append, List.filterMap_map, Function.comp_def, stepOfPart?]

/-- The names of directories are passed one after the other. -/
theorem Node.Passes.of_names {top : Node} {names : List String} {cur l : Location}
    {rest : List Step} (hdir : top.layout (cur ++ names) = some .dir)
    (h : top.Passes cur (names.map Step.name ++ rest) l) :
    l <+: cur ++ names ∨ top.Passes (cur ++ names) rest l := by
  induction names generalizing cur with
  | nil =>
    rw [List.append_nil]
    exact Or.inr h
  | cons n names ih =>
    rw [List.append_cons] at hdir ⊢
    cases h with
    | here => exact Or.inl ((List.prefix_append ..).trans (List.prefix_append ..))
    | name _ _ h => exact ih hdir h
    | link _ hlink _ =>
      rw [Node.layout_above hdir (List.prefix_append ..)] at hlink
      cases hlink

/-- Steps that do not lead up stay below a directory whose links do not lead up either. -/
theorem Node.Passes.stays {top : Node} {root : Location}
    (hlinks : ∀ r target, top.layout (root ++ r) = some (.link target) →
      (stepsOf target).1 = false ∧ .up ∉ (stepsOf target).2) {cur l : Location}
    {steps : List Step} (h : top.Passes cur steps l) (hcur : root <+: cur)
    (hsteps : .up ∉ steps) : root <+: l := by
  induction h with
  | here => exact hcur
  | dot _ _ ih => exact ih hcur fun hup => hsteps (List.mem_cons_of_mem _ hup)
  | up => exact (hsteps List.mem_cons_self).elim
  | name _ _ _ ih =>
    exact ih (hcur.trans (List.prefix_append ..)) fun hup => hsteps (List.mem_cons_of_mem _ hup)
  | @link cur l n target rest _ hlink _ ih =>
    obtain ⟨r, rfl⟩ := hcur
    rw [List.append_assoc] at hlink
    obtain ⟨hrelative, hup⟩ := hlinks _ target hlink
    rw [hrelative] at ih
    refine ih (List.prefix_append ..) fun hmem => ?_
    rcases List.mem_append.mp hmem with hmem | hmem
    · exact hup hmem
    · exact hsteps (List.mem_cons_of_mem _ hmem)

/-! ## Away from a place -/

section

variable {top new : Node} {place : Location}
  (hsame : ∀ l, ¬place <+: l → new.layout l = top.layout l)
  (hfree : ∀ r target, top.layout (place ++ r) ≠ some (.link target))

include hsame hfree

/-- A walk that does not pass a place ends in the same way on trees that differ there alone. -/
theorem walk_apart {links : Nat} {cur : Location} {steps : List Step}
    (hap : ∀ l, top.Passes cur steps l → ¬place <+: l) :
    (∃ f, walk top true links cur steps = .error f ∧ walk new true links cur steps = .error f) ∨
    ∃ l, ¬place <+: l ∧ walk top true links cur steps = .ok ⟨l, top.at? l⟩ ∧
      walk new true links cur steps = .ok ⟨l, new.at? l⟩ := by
  induction links generalizing cur steps with
  | zero => exact Or.inl ⟨.tooManyLinks, rfl, rfl⟩
  | succ links ihl =>
    induction steps generalizing cur with
    | nil => exact Or.inr ⟨cur, hap cur .here, rfl, rfl⟩
    | cons step rest ihs =>
      rw [walk_cons, walk_cons, hsame cur (hap cur .here)]
      cases hcur : top.layout cur with
      | none => exact Or.inl ⟨.notFound, rfl, rfl⟩
      | some i =>
        cases i with
        | file bytes executable => exact Or.inl ⟨.notDirectory, rfl, rfl⟩
        | link target => exact Or.inl ⟨.notDirectory, rfl, rfl⟩
        | dir =>
          cases step with
          | here => exact ihs fun l hl => hap l (.dot hcur hl)
          | up => exact ihs fun l hl => hap l (.up hcur hl)
          | name n =>
            dsimp only
            cases hn : top.layout (cur ++ [n]) with
            | none =>
              have hout := hap (cur ++ [n]) (.name hcur (by simp [hn]) .here)
              rw [hsame _ hout, hn]
              by_cases hrest : rest = []
              · have hold := Node.layout_eq_none.mp hn
                have hnew := Node.layout_eq_none.mp ((hsame _ hout).trans hn)
                exact Or.inr ⟨cur ++ [n], hout, by simp [hrest, hold], by simp [hrest, hnew]⟩
              · exact Or.inl ⟨.notFound, by simp [hrest], by simp [hrest]⟩
            | some j =>
              cases j with
              | link target =>
                have hout : ¬place <+: cur ++ [n] := by
                  rintro ⟨r, hr⟩
                  exact hfree r target (hr ▸ hn)
                rw [hsame _ hout, hn]
                simp only [Bool.not_true, Bool.and_false, Bool.false_eq_true, if_false, follower]
                split
                · exact Or.inl ⟨.notFound, rfl, rfl⟩
                · exact ihl fun l hl => hap l (.link hcur hn hl)
              | file bytes executable =>
                have hno : ∀ target, top.layout (cur ++ [n]) ≠ some (.link target) := by simp [hn]
                rw [hsame _ (hap (cur ++ [n]) (.name hcur hno .here)), hn]
                exact ihs fun l hl => hap l (.name hcur hno hl)
              | dir =>
                have hno : ∀ target, top.layout (cur ++ [n]) ≠ some (.link target) := by simp [hn]
                rw [hsame _ (hap (cur ++ [n]) (.name hcur hno .here)), hn]
                exact ihs fun l hl => hap l (.name hcur hno hl)

end

/-- The names in a proper directory are said by what is at them. -/
theorem Node.Proper.map_fst_eq {entries entries' : List (String × Node)}
    (h : (Node.dir entries).Proper) (h' : (Node.dir entries').Proper)
    (hget : ∀ name, Entries.get? name entries = none ↔ Entries.get? name entries' = none) :
    entries.map Prod.fst = entries'.map Prod.fst := by
  have hmem (name : String) : name ∈ entries.map Prod.fst ↔ name ∈ entries'.map Prod.fst := by
    have hsome {es : List (String × Node)} (hes : (Node.dir es).Proper) :
        name ∈ es.map Prod.fst ↔ ¬Entries.get? name es = none := by
      rw [← Ne, Option.ne_none_iff_exists']
      simp [hes.get?_iff]
    rw [hsome h, hsome h', hget]
  cases h with
  | dir hsorted _ _ =>
    cases h' with
    | dir hsorted' _ _ =>
      refine List.Perm.eq_of_pairwise (fun a b _ _ hab hba => ?_) hsorted hsorted'
        ((List.perm_ext_iff_of_nodup (hsorted.imp ne_of_lt) (hsorted'.imp ne_of_lt)).mpr hmem)
      exact (lt_asymm hab hba).elim

/-- The stops within a directory go by its names. -/
theorem Stop.within_congr (s : Stop) (l : Location) {es es' : List (String × Node)}
    (hnames : es'.map Prod.fst = es.map Prod.fst) : s.within l es' = s.within l es := by
  have hmap (es : List (String × Node)) : s.within l es = (es.map Prod.fst).map fun name =>
      ⟨(l, s.path) :: s.inside, s.names ++ [name], l ++ [name], s.path.join name⟩ := by
    rw [List.map_map]
    rfl
  rw [hmap, hmap, hnames]

/-- The path of a stop has a name as its last part, if the path at the start has. -/
theorem Stop.Sound.exists_join {d : Disk} {p : Path} {s : Stop} (hs : s.Sound d p)
    (hp : ∃ (q : Path) (name : String), p = q.join name ∧ IsName name) :
    ∃ (q : Path) (name : String), s.path = q.join name ∧ IsName name := by
  rw [hs.path_eq]
  cases hnames : s.names using List.reverseRecOn with
  | nil => exact hp
  | append_singleton names name =>
    exact ⟨p.joinAll names, name, joinAll_concat .., hs.isName name (by simp [hnames])⟩

/-- Whether a disk differs from an older one at a place alone. The place is a directory on both,
and has no links on the older one. -/
structure AlikeOutside (place : Location) (d d' : Disk) : Prop where
  here : d'.here = d.here
  proper : d.top.Proper
  proper' : d'.top.Proper
  same : ∀ l, ¬place <+: l → d'.top.layout l = d.top.layout l
  free : ∀ r target, d.top.layout (place ++ r) ≠ some (.link target)
  dir : d.top.layout place = some .dir
  dir' : d'.top.layout place = some .dir

namespace AlikeOutside

variable {place : Location} {d d' : Disk} (h : AlikeOutside place d d')

include h

/-- A path that does not pass the place leads to the same location, or nowhere. -/
theorem stat_join {p : Path} {name : String} (hname : IsName name)
    (hap : ∀ l, d.Passes (p.join name) l → ¬place <+: l) :
    (∃ f, d.stat (p.join name) = .error f ∧ d'.stat (p.join name) = .error f) ∨
    ∃ l n n', ¬place <+: l ∧ d.stat (p.join name) = .ok (l, n) ∧
      d'.stat (p.join name) = .ok (l, n') := by
  have hparts : (p.join name).parts = p.parts ++ [.name name] := parts_join p (c := .name name) hname
  have hresolve (e : Disk) : e.resolve true (p.join name) =
      walk e.top true (maxLinks + 1) (e.origin (p.join name).parts)
        (stepsOfParts (p.join name).parts) := by
    have hjoin := resolve_join e true p (c := .name name) hname
    rw [hparts]
    exact hjoin
  have horigin : d'.origin (p.join name).parts = d.origin (p.join name).parts := by
    rw [origin, origin, h.here]
  rw [stat_eq, stat_eq, hresolve, hresolve, horigin]
  rcases walk_apart h.same h.free hap with ⟨f, hold, hnew⟩ | ⟨l, hl, hold, hnew⟩
  · exact Or.inl ⟨f, by rw [hold]; rfl, by rw [hnew]; rfl⟩
  · rw [hold, hnew]
    have hsame := h.same l hl
    cases hn : d.top.at? l with
    | none =>
      rw [Node.layout_eq_none.mpr hn, Node.layout_eq_none] at hsame
      rw [hsame]
      exact Or.inl ⟨.notFound, rfl, rfl⟩
    | some n =>
      rw [Node.layout, Node.layout, hn, Option.map_some, Option.map_eq_some_iff] at hsame
      obtain ⟨n', hn', -⟩ := hsame
      rw [hn']
      exact Or.inr ⟨l, n, n', hl, rfl, rfl⟩

/-- Outside of the place directories are the same, and have the same names. -/
theorem entries {l : Location} (hl : ¬place <+: l) {n n' : Node} (hn : d.top.at? l = some n)
    (hn' : d'.top.at? l = some n') :
    n'.isDir = n.isDir ∧ n'.entries.map Prod.fst = n.entries.map Prod.fst := by
  have hitem : n'.item = n.item := by
    have hsame := h.same l hl
    rw [Node.layout, Node.layout, hn, hn'] at hsame
    exact Option.some.inj hsame
  cases n with
  | file bytes executable =>
    obtain rfl := Node.item_eq_file.mp hitem
    exact ⟨rfl, rfl⟩
  | link target =>
    obtain rfl := Node.item_eq_link.mp hitem
    exact ⟨rfl, rfl⟩
  | dir es =>
    obtain ⟨es', rfl⟩ := Node.item_eq_dir.mp hitem
    have hold : (Node.dir es).Proper := h.proper.at? hn
    refine ⟨rfl, (h.proper'.at? hn').map_fst_eq hold fun name => ?_⟩
    change Entries.get? name es' = none ↔ Entries.get? name es = none
    rw [← Node.at?_concat_dir name hn, ← Node.at?_concat_dir name hn', ← Node.layout_eq_none,
      ← Node.layout_eq_none]
    by_cases hin : place <+: l ++ [name]
    · -- The place itself is there on both disks.
      obtain rfl := (List.prefix_concat_iff.mp hin).resolve_right hl
      simp [h.dir, h.dir']
    · rw [h.same _ hin]

/-- A walk does the same at a stop whose path does not pass the place. -/
theorem visit {p : Path} (hp : ∃ (q : Path) (name : String), p = q.join name ∧ IsName name)
    {s : Stop} (hs : s.Sound d p) (hap : ∀ l, d.Passes s.path l → ¬place <+: l) :
    s.visit d' = s.visit d := by
  obtain ⟨q, name, hpath, hname⟩ := hs.exists_join hp
  have hstat := h.stat_join (p := q) hname (hpath ▸ hap)
  rw [← hpath] at hstat
  obtain ⟨m, hm, hr⟩ := hs.reached
  by_cases hlink : ∃ target, m = .link target
  · obtain ⟨target, rfl⟩ := hlink
    have hout : ¬place <+: s.location := by
      rintro ⟨r, hr⟩
      exact h.free r target (hr ▸ Node.layout_eq_link.mpr hm)
    have hm' : d'.top.at? s.location = some (.link target) := by
      rw [← Node.layout_eq_link, h.same _ hout, Node.layout_eq_link, hm]
    rw [Stop.visit, Stop.visit, hm, hm']
    rcases hstat with ⟨f, hold, hnew⟩ | ⟨l, n, n', hl, hold, hnew⟩
    · simp only [hold, hnew]
    · obtain ⟨hdir, hnames⟩ := h.entries hl (at?_of_stat hold) (at?_of_stat hnew)
      simp only [hold, hnew, hdir, s.within_congr l hnames]
  · have hold := hr.stat_eq (fun target ht => hlink ⟨target, ht⟩)
    rcases hstat with ⟨f, hf, -⟩ | ⟨l, n, n', hl, hold', hnew⟩
    · rw [hold] at hf
      cases hf
    · rw [hold] at hold'
      obtain ⟨rfl, rfl⟩ := Prod.mk.inj (Except.ok.inj hold')
      have hm' := at?_of_stat hnew
      obtain ⟨hdir, hnames⟩ := h.entries hl hm hm'
      have hitem : n'.item = m.item := by
        have hsame := h.same _ hl
        rw [Node.layout, Node.layout, hm, hm'] at hsame
        exact Option.some.inj hsame
      rw [Stop.visit, Stop.visit, hm, hm']
      cases m with
      | link target => exact (hlink ⟨target, rfl⟩).elim
      | file bytes executable =>
        obtain rfl := Node.item_eq_file.mp hitem
        rfl
      | dir es =>
        obtain ⟨es', rfl⟩ := Node.item_eq_dir.mp hitem
        have hw := s.within_congr s.location hnames
        simp only [Node.entries] at hw
        simp only [hw]

end AlikeOutside

end Disk

end Scaffold
