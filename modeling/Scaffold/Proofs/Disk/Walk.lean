import Scaffold.Disk.Resolve
import Scaffold.Proofs.Disk.Layout
import Mathlib.Data.List.Induction

/-!
# Walks along links

What a walk comes to depends on the layout alone (`walk_cons`). A walk of some steps and then
some more is two walks (`walk_append`), so a dot in it says nothing unless it is the last step
(`walk_dropDots`), and where a walk leads to something it still does when more is stored
(`walk_of_grows`).
-/

namespace Scaffold

namespace Disk

open Node

variable {top : Node}

/-! ## One step -/

/-- How a walk with some links left goes on at a link. -/
def follower (top : Node) (followLast : Bool) (links : Nat) : Follower := fun dir target rest =>
  if target.isEmpty then .error .notFound
  else walk top followLast links (if (stepsOf target).1 then [] else dir)
    ((stepsOf target).2 ++ rest)

/-- The first step of a walk, on the layout of the tree. -/
theorem walk_cons (top : Node) (followLast : Bool) (links : Nat) (cur : Location) (step : Step)
    (rest : List Step) :
    walk top followLast (links + 1) cur (step :: rest) =
      match top.layout cur, step with
      | some .dir, .here => walk top followLast (links + 1) cur rest
      | some .dir, .up => walk top followLast (links + 1) cur.dropLast rest
      | some .dir, .name n =>
        match top.layout (cur ++ [n]) with
        | none => if rest.isEmpty then .ok ⟨cur ++ [n], none⟩ else .error .notFound
        | some (.link target) =>
          if rest.isEmpty && !followLast then .ok ⟨cur ++ [n], some (.link target)⟩
          else follower top followLast links cur target rest
        | some _ => walk top followLast (links + 1) (cur ++ [n]) rest
      | some _, _ => .error .notDirectory
      | none, _ => .error .notFound := by
  rw [walk, walkSteps]
  cases hcur : top.at? cur with
  | none => simp [layout, hcur]
  | some m =>
    cases m with
    | file bytes executable => simp [layout, hcur, item]
    | link target => simp [layout, hcur, item]
    | dir entries =>
      cases step with
      | here | up =>
        simp only [layout, hcur, Option.map_some, item]
        rfl
      | name n =>
        simp only [layout, hcur, Option.map_some, item, at?_concat_dir n hcur]
        cases Entries.get? n entries with
        | none => rfl
        | some c => cases c <;> rfl

theorem walk_up (top : Node) (followLast : Bool) (links : Nat) (cur : Location)
    (rest : List Step) :
    walk top followLast (links + 1) cur (.up :: rest) =
      match top.layout cur with
      | some .dir => walk top followLast (links + 1) cur.dropLast rest
      | some _ => .error .notDirectory
      | none => .error .notFound := by
  rw [walk_cons]
  split <;> simp_all

theorem walk_name (top : Node) (followLast : Bool) (links : Nat) (cur : Location) (n : String)
    (rest : List Step) :
    walk top followLast (links + 1) cur (.name n :: rest) =
      match top.layout cur with
      | some .dir =>
        match top.layout (cur ++ [n]) with
        | none => if rest.isEmpty then .ok ⟨cur ++ [n], none⟩ else .error .notFound
        | some (.link target) =>
          if rest.isEmpty && !followLast then .ok ⟨cur ++ [n], some (.link target)⟩
          else follower top followLast links cur target rest
        | some _ => walk top followLast (links + 1) (cur ++ [n]) rest
      | some _ => .error .notDirectory
      | none => .error .notFound := by
  rw [walk_cons]
  split <;> simp_all

/-! ## More steps -/

/-- A walk of some steps and then some more fails as the first walk, or goes on from where it
led to. -/
theorem walk_append (top : Node) (links : Nat) (cur : Location) (xs : List Step) :
    (∃ f, walk top true links cur xs = .error f ∧
      ∀ followLast ys, ys ≠ [] → walk top followLast links cur (xs ++ ys) = .error f) ∨
    ∃ l k, walk top true links cur xs = .ok ⟨l, top.at? l⟩ ∧
      ∀ followLast ys, ys ≠ [] →
        walk top followLast links cur (xs ++ ys) = walk top followLast (k + 1) l ys := by
  induction links generalizing cur xs with
  | zero => exact Or.inl ⟨.tooManyLinks, rfl, fun _ _ _ => rfl⟩
  | succ links ihl =>
    induction xs generalizing cur with
    | nil => exact Or.inr ⟨cur, links, rfl, fun _ _ _ => rfl⟩
    | cons step rest ihs =>
      rw [walk_cons]
      simp only [List.cons_append, walk_cons]
      split
      · exact ihs cur
      · exact ihs cur.dropLast
      · rename_i n hdir
        split
        · rename_i hnone
          by_cases hrest : rest = []
          · refine Or.inr ⟨cur ++ [n], links, ?_, fun followLast ys hys => ?_⟩
            · simp [hrest, layout_eq_none.mp hnone]
            · obtain ⟨y, ys, rfl⟩ := List.exists_cons_of_ne_nil hys
              simp [hrest, walk_cons, hnone]
          · exact Or.inl ⟨.notFound, by simp [hrest], fun followLast ys hys => by simp [hrest]⟩
        · rename_i target hlink
          by_cases ht : target.isEmpty = true
          · refine Or.inl ⟨.notFound, by simp [follower, ht], fun followLast ys hys => ?_⟩
            simp [hys, follower, ht]
          · rcases ihl (if (stepsOf target).1 then [] else cur) ((stepsOf target).2 ++ rest) with
              ⟨f, hf, hmore⟩ | ⟨l, k, hl, hmore⟩
            · refine Or.inl ⟨f, by simpa [follower, ht] using hf, fun followLast ys hys => ?_⟩
              simpa [hys, follower, ht] using hmore followLast ys hys
            · refine Or.inr ⟨l, k, by simpa [follower, ht] using hl, fun followLast ys hys => ?_⟩
              simpa [hys, follower, ht] using hmore followLast ys hys
        · exact ihs (cur ++ [n])
      · exact Or.inl ⟨.notDirectory, rfl, fun _ _ _ => rfl⟩
      · exact Or.inl ⟨.notFound, rfl, fun _ _ _ => rfl⟩

/-- The last step of a walk, from the directory that the steps before lead to. -/
theorem walk_concat_of_ok {links : Nat} {cur : Location} {xs : List Step} {step : Step}
    {followLast : Bool} {found : Found}
    (h : walk top followLast links cur (xs ++ [step]) = .ok found) :
    ∃ l k, walk top true links cur xs = .ok ⟨l, top.at? l⟩ ∧ top.layout l = some .dir ∧
      ∀ followLast,
        walk top followLast links cur (xs ++ [step]) = walk top followLast (k + 1) l [step] := by
  rcases walk_append top links cur xs with ⟨f, -, hmore⟩ | ⟨l, k, hl, hmore⟩
  · rw [hmore followLast [step] (by simp)] at h
    cases h
  · refine ⟨l, k, hl, ?_, fun followLast => hmore followLast [step] (by simp)⟩
    rw [hmore followLast [step] (by simp), walk_cons] at h
    split at h
    · assumption
    · assumption
    · assumption
    · cases h
    · cases h

/-- What a walk leads to stands where it leads. -/
theorem walk_node {links : Nat} {cur : Location} {xs : List Step} {found : Found}
    (h : walk top true links cur xs = .ok found) : found.node = top.at? found.location := by
  rcases walk_append top links cur xs with ⟨f, hf, -⟩ | ⟨l, k, hl, -⟩
  · rw [hf] at h
    cases h
  · rw [hl] at h
    obtain rfl := Except.ok.inj h
    rfl

/-! ## Dots on the way -/

/-- Steps without those that only ask for a directory. -/
def dropDots (steps : List Step) : List Step := steps.filter (· ≠ .here)

@[simp] theorem dropDots_nil : dropDots [] = [] := rfl

@[simp] theorem dropDots_here (rest : List Step) : dropDots (.here :: rest) = dropDots rest := rfl

@[simp] theorem dropDots_up (rest : List Step) :
    dropDots (.up :: rest) = .up :: dropDots rest := rfl

@[simp] theorem dropDots_name (n : String) (rest : List Step) :
    dropDots (.name n :: rest) = .name n :: dropDots rest := rfl

theorem dropDots_append (xs ys : List Step) : dropDots (xs ++ ys) = dropDots xs ++ dropDots ys :=
  List.filter_append ..

theorem dropDots_dropDots (xs : List Step) : dropDots (dropDots xs) = dropDots xs := by
  simp [dropDots]

theorem getLast?_dropDots (xs : List Step) : (dropDots xs).getLast? ≠ some .here := by
  intro h
  have hmem := List.mem_of_getLast? h
  simp [dropDots] at hmem

/-- Steps that do not end in a dot are not all dots. -/
theorem dropDots_ne_nil {xs : List Step} (hne : xs ≠ []) (h : xs.getLast? ≠ some .here) :
    dropDots xs ≠ [] := by
  intro hnil
  have hmem := List.getLast_mem hne
  have hlast : xs.getLast hne ≠ .here := fun hl => h (by rw [List.getLast?_eq_some_getLast hne, hl])
  have hin : xs.getLast hne ∈ dropDots xs := by simp [dropDots, hlast]
  rw [hnil] at hin
  exact List.not_mem_nil hin

theorem getLast?_append_of_ne_nil {xs ys : List Step} (h : ys ≠ []) :
    (xs ++ ys).getLast? = ys.getLast? := by
  rw [List.getLast?_append, List.getLast?_eq_some_getLast h, Option.some_or]

theorem walk_here {rest : List Step} (h : rest ≠ []) (followLast : Bool) (links : Nat)
    (cur : Location) :
    walk top followLast (links + 1) cur (.here :: rest) =
      walk top followLast (links + 1) cur rest := by
  obtain ⟨step, rest, rfl⟩ := List.exists_cons_of_ne_nil h
  rw [walk_cons]
  cases hcur : top.layout cur with
  | none => simp [walk_cons, hcur]
  | some i =>
    cases i with
    | dir => rfl
    | file bytes executable => simp [walk_cons, hcur]
    | link target => simp [walk_cons, hcur]

/-- A dot that is not the last step of a walk says nothing. -/
theorem walk_dropDots (followLast : Bool) (links : Nat) (cur : Location) (steps : List Step)
    (h : steps.getLast? ≠ some .here) :
    walk top followLast links cur (dropDots steps) = walk top followLast links cur steps := by
  induction links generalizing cur steps with
  | zero => rfl
  | succ links ihl =>
    induction steps generalizing cur with
    | nil => rfl
    | cons step rest ihs =>
      have hlast : rest.getLast? ≠ some .here := by
        cases rest with
        | nil => simp
        | cons r rest => rwa [List.getLast?_cons_cons] at h
      cases step with
      | here =>
        have hne : rest ≠ [] := by
          rintro rfl
          exact h rfl
        rw [dropDots_here, walk_here hne, ihs cur hlast]
      | up =>
        rw [dropDots_up, walk_up, walk_up, ihs cur.dropLast hlast]
      | name n =>
        have hempty : (dropDots rest).isEmpty = rest.isEmpty := by
          cases rest with
          | nil => rfl
          | cons r rest =>
            have hne := dropDots_ne_nil (List.cons_ne_nil r rest) hlast
            simpa using hne
        -- The steps after a link are dropped in the walk along the link as well.
        have hfollow (dir : Location) (target : String) :
            follower top followLast links dir target (dropDots rest) =
              follower top followLast links dir target rest := by
          by_cases hr : rest = []
          · rw [hr]
            rfl
          · have hd := dropDots_ne_nil hr hlast
            rw [follower, follower]
            split
            · rfl
            · rw [← ihl _ ((stepsOf target).2 ++ dropDots rest),
                ← ihl _ ((stepsOf target).2 ++ rest), dropDots_append, dropDots_append,
                dropDots_dropDots]
              · rwa [getLast?_append_of_ne_nil hr]
              · rw [getLast?_append_of_ne_nil hd]
                exact getLast?_dropDots rest
        simp only [dropDots_name, walk_name, ihs _ hlast, hempty, hfollow]

/-- A walk that leads to something leads there without the dots as well. -/
theorem walk_dropDots_of_some {links : Nat} {cur l : Location} {steps : List Step} {n : Node}
    (h : walk top true links cur steps = .ok ⟨l, some n⟩) :
    walk top true links cur (dropDots steps) = .ok ⟨l, some n⟩ := by
  induction steps using List.reverseRecOn with
  | nil => exact h
  | append_singleton steps step ih =>
    by_cases hs : step = .here
    · subst hs
      obtain ⟨l', k, hl, hdir, hlast⟩ := walk_concat_of_ok h
      rw [hlast, walk_cons, hdir] at h
      obtain ⟨rfl, hn⟩ := Found.mk.inj (Except.ok.inj h)
      rw [dropDots_append, dropDots_here, dropDots_nil, List.append_nil]
      exact ih (by rw [hl, hn])
    · rw [walk_dropDots _ _ _ _ (by simpa using hs), h]

/-- Where a walk leads to a directory, dots on it do not matter. -/
theorem walk_of_dropDots {links : Nat} {cur l : Location} {steps : List Step}
    {entries : List (String × Node)}
    (h : walk top true links cur (dropDots steps) = .ok ⟨l, some (.dir entries)⟩) :
    walk top true links cur steps = .ok ⟨l, some (.dir entries)⟩ := by
  induction steps using List.reverseRecOn with
  | nil => exact h
  | append_singleton steps step ih =>
    by_cases hs : step = .here
    · subst hs
      rw [dropDots_append, dropDots_here, dropDots_nil, List.append_nil] at h
      have ih := ih h
      rcases walk_append top links cur steps with ⟨f, hf, -⟩ | ⟨l', k, hl, hmore⟩
      · rw [hf] at ih
        cases ih
      · rw [hl] at ih
        obtain ⟨rfl, hn⟩ := Found.mk.inj (Except.ok.inj ih)
        rw [hmore true [.here] (by simp), walk_cons, layout_eq_dir.mpr ⟨entries, hn⟩]
        exact congrArg (fun n => Except.ok (Found.mk l' n)) hn
    · rwa [walk_dropDots _ _ _ _ (by simpa using hs)] at h

/-- A walk that leads to a free place does not end in a dot. -/
theorem getLast?_of_walk_none {followLast : Bool} {links : Nat} {cur l : Location}
    {steps : List Step} (h : walk top followLast links cur steps = .ok ⟨l, none⟩) :
    steps.getLast? ≠ some .here := by
  intro hlast
  obtain ⟨steps, rfl⟩ := List.getLast?_eq_some_iff.mp hlast
  obtain ⟨l', k, hl, hdir, hmore⟩ := walk_concat_of_ok h
  rw [hmore, walk_cons, hdir] at h
  obtain ⟨rfl, hn⟩ := Found.mk.inj (Except.ok.inj h)
  rw [layout, hn] at hdir
  cases hdir

/-- A walk that leads to a free place leads there without the dots as well. -/
theorem walk_dropDots_of_none {followLast : Bool} {links : Nat} {cur l : Location}
    {steps : List Step} (h : walk top followLast links cur steps = .ok ⟨l, none⟩) :
    walk top followLast links cur (dropDots steps) = .ok ⟨l, none⟩ := by
  rw [walk_dropDots _ _ _ _ (getLast?_of_walk_none h), h]

/-- What a walk leads to is there, or a link to it, when the last link is not followed. -/
theorem exists_walk_false {links : Nat} {cur l : Location} {steps : List Step} {n : Node}
    (h : walk top true links cur steps = .ok ⟨l, some n⟩) :
    ∃ l' n', walk top false links cur steps = .ok ⟨l', some n'⟩ ∧
      ((∃ target, n' = .link target) ∨ l' = l ∧ n' = n) := by
  cases steps using List.reverseRecOn with
  | nil =>
    cases links with
    | zero => cases h
    | succ links => exact ⟨l, n, h, Or.inr ⟨rfl, rfl⟩⟩
  | append_singleton steps step =>
    obtain ⟨l', k, -, hdir, hlast⟩ := walk_concat_of_ok h
    rw [hlast, walk_cons, hdir] at h
    rw [hlast, walk_cons, hdir]
    cases step with
    | here | up => exact ⟨l, n, h, Or.inr ⟨rfl, rfl⟩⟩
    | name m =>
      simp only at h ⊢
      split at h
      · simp at h
      · exact ⟨_, _, rfl, Or.inl ⟨_, rfl⟩⟩
      · exact ⟨l, n, h, Or.inr ⟨rfl, rfl⟩⟩

/-! ## When more is stored -/

/-- Whether a layout has all that an older one has. Only the bytes of files may differ. -/
def Layout.Grows (old new : Layout) : Prop :=
  ∀ l, new l = old l ∨ old l = none ∨
    ((∃ bytes executable, old l = some (.file bytes executable)) ∧
      ∃ bytes executable, new l = some (.file bytes executable))

/-- All but files are the same in both. -/
theorem Layout.Grows.of_ne_file {old new : Layout} (h : old.Grows new) {l : Location} {i : Item}
    (hl : old l = some i) (hi : ∀ bytes executable, i ≠ .file bytes executable) :
    new l = some i := by
  rcases h l with h | h | ⟨⟨bytes, executable, h⟩, -⟩
  · rw [h, hl]
  · rw [hl] at h
    cases h
  · exact absurd (Option.some.inj (hl.symm.trans h)) (hi bytes executable)

theorem Layout.Grows.dir {old new : Layout} (h : old.Grows new) {l : Location}
    (hl : old l = some .dir) : new l = some .dir :=
  h.of_ne_file hl (by simp)

theorem Layout.Grows.link {old new : Layout} (h : old.Grows new) {l : Location}
    {target : String} (hl : old l = some (.link target)) : new l = some (.link target) :=
  h.of_ne_file hl (by simp)

theorem Layout.Grows.file {old new : Layout} (h : old.Grows new) {l : Location}
    {bytes : ByteArray} {executable : Bool} (hl : old l = some (.file bytes executable)) :
    ∃ bytes executable, new l = some (.file bytes executable) := by
  rcases h l with h | h | ⟨-, h⟩
  · exact ⟨bytes, executable, by rw [h, hl]⟩
  · rw [hl] at h
    cases h
  · exact h

/-- Nothing goes away. -/
theorem Layout.Grows.ne_none {old new : Layout} (h : old.Grows new) {l : Location}
    (hl : old l ≠ none) : new l ≠ none := by
  rcases h l with hsame | hnone | ⟨-, bytes, executable, hfile⟩
  · rwa [hsame]
  · exact (hl hnone).elim
  · rw [hfile]
    exact Option.some_ne_none _

/-- Something that was there and is a file was a file before. -/
theorem Layout.Grows.file_of_ne_none {old new : Layout} (h : old.Grows new) {l : Location}
    (hl : old l ≠ none) {bytes : ByteArray} {executable : Bool}
    (hnew : new l = some (.file bytes executable)) :
    ∃ bytes executable, old l = some (.file bytes executable) := by
  rcases h l with hsame | hnone | ⟨hold, -⟩
  · exact ⟨bytes, executable, hsame ▸ hnew⟩
  · exact (hl hnone).elim
  · exact hold

theorem Layout.Grows.refl (layout : Layout) : layout.Grows layout := fun _ => Or.inl rfl

theorem Layout.Grows.trans {a b c : Layout} (h : a.Grows b) (h' : b.Grows c) : a.Grows c := by
  intro l
  rcases h l with hl | hl | ⟨hold, bytes, executable, hl⟩
  · rw [← hl]
    exact h' l
  · exact Or.inr (Or.inl hl)
  · exact Or.inr (Or.inr ⟨hold, h'.file hl⟩)

theorem Layout.grows_set_file {old : Layout} {l : Location}
    (h : old l = none ∨ ∃ bytes executable, old l = some (.file bytes executable))
    (bytes : ByteArray) (executable : Bool) : old.Grows (old.set l (.file bytes executable)) := by
  intro l'
  unfold Layout.set
  split
  · rename_i hl
    rw [hl]
    exact Or.inr (h.imp_right fun h => ⟨h, bytes, executable, rfl⟩)
  · exact Or.inl rfl

/-- A walk leads to the same location when more is stored, also to one that was free if it is free
or a directory then. -/
theorem walk_of_grows_of_free {new : Node} (hg : top.layout.Grows new.layout) {links : Nat}
    {cur l : Location} {steps : List Step} {n : Option Node}
    (hfree : n = none → new.layout l = none ∨ new.layout l = some .dir)
    (h : walk top true links cur steps = .ok ⟨l, n⟩) :
    walk new true links cur steps = .ok ⟨l, new.at? l⟩ := by
  induction links generalizing cur steps with
  | zero => cases h
  | succ links ihl =>
    induction steps generalizing cur with
    | nil =>
      obtain ⟨rfl, -⟩ := Found.mk.inj (Except.ok.inj h)
      rfl
    | cons step rest ihs =>
      rw [walk_cons] at h
      split at h
      · rename_i hdir
        rw [walk_cons, hg.dir hdir]
        exact ihs h
      · rename_i hdir
        rw [walk_cons, hg.dir hdir]
        exact ihs h
      · rename_i m hdir
        rw [walk_name, hg.dir hdir]
        split at h
        · split at h
          · rename_i hrest
            obtain ⟨rfl, rfl⟩ := Found.mk.inj (Except.ok.inj h)
            obtain rfl := List.isEmpty_iff.mp hrest
            rcases hfree rfl with hnew | hnew
            · simp only [hnew, List.isEmpty_nil, if_true, Node.layout_eq_none.mp hnew]
            · simp only [hnew]
              rfl
          · cases h
        · rename_i target hlink
          rw [Bool.not_true, Bool.and_false, if_neg Bool.false_ne_true, follower] at h
          split at h
          · cases h
          · rename_i ht
            simp only [hg.link hlink, Bool.not_true, Bool.and_false, follower, ht]
            exact ihl h
        · rename_i i hnolink hi
          cases i with
          | dir =>
            simp only [hg.dir hi]
            exact ihs h
          | file bytes executable =>
            obtain ⟨bytes', executable', hi'⟩ := hg.file hi
            simp only [hi']
            exact ihs h
          | link target => exact (hnolink target rfl).elim
      · cases h
      · cases h

/-- A walk that leads to something leads there when more is stored. -/
theorem walk_of_grows {new : Node} (hg : top.layout.Grows new.layout) {links : Nat}
    {cur l : Location} {steps : List Step} {n : Node}
    (h : walk top true links cur steps = .ok ⟨l, some n⟩) :
    walk new true links cur steps = .ok ⟨l, new.at? l⟩ :=
  walk_of_grows_of_free (n := some n) hg (fun hn => by cases hn) h

end Disk

end Scaffold
