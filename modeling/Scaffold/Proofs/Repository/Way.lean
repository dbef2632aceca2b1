import Scaffold.Proofs.Disk.Proper
import Scaffold.Repository.Submodule

/-!
# Ways from files to repositories

The file beside the files of a submodule has a line that leads to its repository : up to the top
of the checkout, then down into the repository of the checkout. `LeadsIn` says so of a file, and
the text that is written for a submodule is one of them (`leadsIn_siteText`), whatever its name
is : a line that ends too early still stays in the repository (`Stays`). Where there are no links
in the repository of the checkout, such a file leads to a place in it (`exists_of_leadsIn`).
-/

namespace Scaffold

open Scaffold.Path

namespace Text

theorem mem_of_mem_pieces {mark c : Char} : ∀ {text piece : List Char},
    piece ∈ pieces mark text → c ∈ piece → c ∈ text
  | [], piece, h, hc => by
    obtain rfl := List.mem_singleton.mp h
    exact hc
  | d :: text, piece, h, hc => by
    by_cases hd : d = mark
    · rw [pieces, if_pos hd] at h
      rcases List.mem_cons.mp h with rfl | h
      · cases hc
      · exact List.mem_cons_of_mem d (mem_of_mem_pieces h hc)
    · obtain ⟨first, more, hp⟩ := List.exists_cons_of_ne_nil (pieces_ne_nil mark text)
      have hrest : ∀ q ∈ first :: more, c ∈ q → c ∈ text :=
        fun q hq => mem_of_mem_pieces (hp ▸ hq)
      simp only [pieces, if_neg hd, hp, List.mem_cons] at h
      rcases h with rfl | h
      · rcases List.mem_cons.mp hc with rfl | hc
        · exact List.mem_cons_self
        · exact List.mem_cons_of_mem d (hrest first List.mem_cons_self hc)
      · exact List.mem_cons_of_mem d (hrest piece (List.mem_cons_of_mem _ h) hc)

end Text

namespace Disk

/-- The characters of names among the steps of a path are characters of the path. -/
theorem mem_of_mem_stepsOf {path n : String} (h : .name n ∈ (stepsOf path).2) {c : Char}
    (hc : c ∈ n.toList) : c ∈ path.toList := by
  rw [stepsOf] at h
  dsimp only at h
  split at h
  · cases h
  · obtain ⟨piece, hmem, hstep⟩ := List.mem_map.mp h
    have hn : n.toList = piece := by
      unfold stepOf at hstep
      split at hstep <;> simp_all
      rw [← hstep, String.toList_ofList]
    exact (List.dropWhile_suffix _).subset (Text.mem_of_mem_pieces hmem (hn ▸ hc))

/-! ## Steps that stay below a directory -/

/-- Whether steps never leave a directory, from some levels below it. -/
def Stays : Nat → List Step → Prop
  | _, [] => True
  | depth, .here :: rest => Stays depth rest
  | 0, .up :: _ => False
  | depth + 1, .up :: rest => Stays depth rest
  | depth, .name _ :: rest => Stays (depth + 1) rest

/-- Without links, steps that stay below a directory lead to names below it. -/
theorem walk_stays {top : Node} {root : Location}
    (hfree : ∀ r target, top.layout (root ++ r) ≠ some (.link target)) {links : Nat} :
    ∀ {steps : List Step} {below : List String} {found : Found}, Stays below.length steps →
      walk top true (links + 1) (root ++ below) steps = .ok found →
      ∃ names, found.location = root ++ names ∧ ∀ n ∈ names, n ∈ below ∨ .name n ∈ steps
  | [], below, found, _, h => ⟨below, by rw [← Except.ok.inj h], fun n hn => Or.inl hn⟩
  | step :: rest, below, found, hs, h => by
    have hmore {names below' : List String}
        (hin : ∀ n ∈ names, n ∈ below' ∨ .name n ∈ rest)
        (hbelow : ∀ n ∈ below', n ∈ below ∨ .name n ∈ step :: rest) :
        ∀ n ∈ names, n ∈ below ∨ .name n ∈ step :: rest := fun n hn =>
      (hin n hn).elim (hbelow n) fun h => Or.inr (List.mem_cons_of_mem step h)
    rw [walk_cons] at h
    split at h
    · have hs : Stays below.length rest := hs
      obtain ⟨names, hl, hin⟩ := walk_stays hfree hs h
      exact ⟨names, hl, hmore hin fun n hn => Or.inl hn⟩
    · -- A double dot leaves the last name, and there is one since the steps stay.
      cases below using List.reverseRecOn with
      | nil => exact hs.elim
      | append_singleton below last =>
        have hs : Stays below.length rest := by
          rw [List.length_append] at hs
          exact hs
        rw [← List.append_assoc, List.dropLast_concat] at h
        obtain ⟨names, hl, hin⟩ := walk_stays hfree hs h
        exact ⟨names, hl, hmore hin fun n hn => Or.inl (List.mem_append_left _ hn)⟩
    · rename_i name hdir
      have hs' : Stays (below ++ [name]).length rest := by
        rw [List.length_append]
        exact hs
      have hbelow : ∀ n ∈ below ++ [name], n ∈ below ∨ .name n ∈ .name name :: rest := by
        intro n hn
        rcases List.mem_append.mp hn with hn | hn
        · exact Or.inl hn
        · exact Or.inr (List.mem_singleton.mp hn ▸ List.mem_cons_self)
      rw [List.append_assoc] at h
      split at h
      · split at h
        · exact ⟨below ++ [name], by rw [← Except.ok.inj h], hbelow⟩
        · cases h
      · rename_i target hlink
        exact (hfree _ target hlink).elim
      · obtain ⟨names, hl, hin⟩ := walk_stays hfree hs' h
        exact ⟨names, hl, hmore hin hbelow⟩
    · cases h
    · cases h

/-- As many double dots as there are names below a directory lead back to it. -/
theorem walk_ups {top : Node} {root : Location} {links : Nat} {found : Found} {rest : List Step}
    {below : List String}
    (h : walk top true (links + 1) (root ++ below) (List.replicate below.length .up ++ rest) =
      .ok found) :
    walk top true (links + 1) root rest = .ok found := by
  induction below using List.reverseRecOn with
  | nil => simpa using h
  | append_singleton below last ih =>
    rw [List.length_append, List.length_singleton, List.replicate_succ, List.cons_append,
      walk_up, ← List.append_assoc, List.dropLast_concat] at h
    split at h
    · exact ih h
    · cases h
    · cases h

/-! ## The steps of a line -/

/-- The steps of the first line of a path, in which a slash stands after each name. -/
def lineSteps (names : List String) : List Step :=
  (Text.pieces '/' ((names.flatMap fun n => n.toList ++ ['/']).takeWhile (· ≠ '\n'))).map stepOf

theorem lineSteps_cons {n : String} (hs : '/' ∉ n.toList) (hl : '\n' ∉ n.toList)
    (names : List String) : lineSteps (n :: names) = stepOf n.toList :: lineSteps names := by
  have hline : ∀ c ∈ n.toList ++ ['/'], decide (c ≠ '\n') = true := by
    intro c hc
    rcases List.mem_append.mp hc with hc | hc
    · exact decide_eq_true fun h => hl (h ▸ hc)
    · rw [List.mem_singleton.mp hc]
      rfl
  rw [lineSteps, List.flatMap_cons, List.takeWhile_append_of_pos hline, List.append_assoc,
    List.singleton_append, Text.pieces_append_mark, Text.pieces_of_not_mem hs]
  rfl

/-- A line that ends in a name ends in a step for what is left of the name. -/
theorem exists_lineSteps_eq {n : String} (hs : '/' ∉ n.toList) (hl : '\n' ∈ n.toList)
    (names : List String) : ∃ step, lineSteps (n :: names) = [step] := by
  have hcut : ((n :: names).flatMap fun n => n.toList ++ ['/']).takeWhile (· ≠ '\n') =
      n.toList.takeWhile (· ≠ '\n') := by
    rw [List.flatMap_cons, List.append_assoc, List.takeWhile_append, if_neg]
    intro hall
    have h := List.takeWhile_eq_self_iff.mp
      ((List.takeWhile_prefix (· ≠ '\n')).eq_of_length hall) '\n' hl
    simp at h
  rw [lineSteps, hcut, Text.pieces_of_not_mem fun h => hs ((List.takeWhile_prefix _).subset h)]
  exact ⟨_, rfl⟩

theorem stepOf_ne_up {n : String} (h : n ≠ "..") : stepOf n.toList ≠ .up := by
  intro hup
  unfold stepOf at hup
  split at hup <;> simp_all
  rename_i hdots
  exact h (String.toList_inj.mp hdots)

/-- The line stays below a directory where it starts below it. Its end may be a double dot. -/
theorem stays_lineSteps : ∀ {names : List String} {depth : Nat}, 0 < depth →
    (∀ n ∈ names, '/' ∉ n.toList ∧ n ≠ "..") → Stays depth (lineSteps names)
  | [], _, _, _ => trivial
  | n :: names, depth, hdepth, h => by
    obtain ⟨depth, rfl⟩ := Nat.exists_eq_succ_of_ne_zero hdepth.ne'
    obtain ⟨hs, hup⟩ := h n List.mem_cons_self
    have hrest : ∀ m ∈ names, '/' ∉ m.toList ∧ m ≠ ".." := fun m hm =>
      h m (List.mem_cons_of_mem n hm)
    by_cases hl : '\n' ∈ n.toList
    · -- The line ends in this name, and its last step may go up once.
      obtain ⟨step, hstep⟩ := exists_lineSteps_eq hs hl names
      rw [hstep]
      cases step <;> trivial
    · rw [lineSteps_cons hs hl]
      cases hstep : stepOf n.toList with
      | here => exact stays_lineSteps hdepth hrest
      | up => exact (stepOf_ne_up hup hstep).elim
      | name m => exact stays_lineSteps (Nat.succ_pos _) hrest

theorem lineSteps_append {names : List String}
    (h : ∀ n ∈ names, '/' ∉ n.toList ∧ '\n' ∉ n.toList) (more : List String) :
    lineSteps (names ++ more) = names.map (fun n => stepOf n.toList) ++ lineSteps more := by
  induction names with
  | nil => rfl
  | cons n names ih =>
    obtain ⟨hs, hl⟩ := h n List.mem_cons_self
    rw [List.cons_append, lineSteps_cons hs hl, ih fun m hm => h m (List.mem_cons_of_mem n hm)]
    rfl

theorem stepOf_name {n : String} (h : IsName n) : stepOf n.toList = .name n := by
  rw [stepOf_eq, partOf?_name h]
  rfl

theorem stays_names_append : ∀ {names : List String} {depth : Nat} {rest : List Step},
    (∀ n ∈ names, IsName n) → Stays (depth + names.length) rest →
      Stays depth (names.map (fun n => stepOf n.toList) ++ rest)
  | [], _, _, _, hrest => hrest
  | n :: names, depth, rest, h, hrest => by
    rw [List.map_cons, stepOf_name (h n List.mem_cons_self), List.cons_append]
    refine stays_names_append (fun m hm => h m (List.mem_cons_of_mem n hm)) ?_
    rw [List.length_cons] at hrest
    rwa [Nat.add_assoc, Nat.add_comm 1]

/-- A line that starts with a dot is no absolute path. -/
theorem stepsOf_line {n : String} (hn : n.toList.head? = some '.') (names : List String) :
    stepsOf (String.ofList (((n :: names).flatMap fun n => n.toList ++ ['/']).takeWhile
      (· ≠ '\n'))) = (false, lineSteps (n :: names)) := by
  obtain ⟨chars, hchars⟩ : ∃ chars, n.toList = '.' :: chars := by
    cases h : n.toList with
    | nil => simp [h] at hn
    | cons c chars => exact ⟨chars, by simpa [h] using hn⟩
  rw [stepsOf, lineSteps, String.toList_ofList]
  simp [hchars]

theorem stepsOf_name {n : String} (h : IsName n) : stepsOf n = (false, [.name n]) := by
  obtain ⟨c, chars, hchars⟩ := List.exists_cons_of_ne_nil (mt String.toList_eq_nil_iff.mp h.1)
  have hc : c ≠ '/' := fun hc => h.2.2.2 (by simp [hchars, hc])
  have hpieces : Text.pieces '/' (c :: chars) = [c :: chars] := by
    rw [← hchars, Text.pieces_of_not_mem h.2.2.2]
  have hstep : stepOf (c :: chars) = .name n := by rw [← hchars, stepOf_name h]
  simp [stepsOf, hchars, hc, hpieces, hstep]

end Disk

namespace Depot

open Disk

/-- What a path leads to from a location is what its steps lead to. -/
theorem walk_of_statFrom {d : Depot} {l l' : Location} {n : Node} {path : String}
    (h : d.statFrom l path = some (l', n)) :
    walk d.disk.top true (maxLinks + 1) (if (stepsOf path).1 then [] else l) (stepsOf path).2 =
      .ok ⟨l', some n⟩ := by
  have hstat : ({ d.disk with here := l } : Disk).stat ⟨path⟩ = .ok (l', n) := by
    unfold statFrom at h
    cases hr : ({ d.disk with here := l } : Disk).stat ⟨path⟩ with
    | error f => simp [hr, Except.toOption] at h
    | ok found => simpa [hr, Except.toOption] using h
  have hr := stat_eq_ok.mp hstat
  unfold resolve at hr
  split at hr
  · cases hr
  · exact hr

/-- What one name leads to from a location, when it is not that of a link. -/
theorem at?_of_statFrom {d : Depot} {l l' : Location} {n : Node} {name : String}
    (hname : IsName name) (hfree : ∀ target, d.disk.top.layout (l ++ [name]) ≠ some (.link target))
    (h : d.statFrom l name = some (l', n)) :
    l' = l ++ [name] ∧ d.disk.top.at? (l ++ [name]) = some n := by
  have hwalk := walk_of_statFrom h
  rw [stepsOf_name hname] at hwalk
  dsimp only at hwalk
  rw [if_neg Bool.false_ne_true, walk_name] at hwalk
  split at hwalk
  · split at hwalk
    · simp at hwalk
    · rename_i target hlink
      exact (hfree target hlink).elim
    · obtain ⟨rfl, hn⟩ := Found.mk.inj (Except.ok.inj hwalk)
      exact ⟨rfl, hn⟩
  · cases hwalk
  · cases hwalk

end Depot

namespace Submodule

open Disk Repository

/-! ## Files that lead into the repository of a checkout -/

/-- Whether a file, some levels below the top of a checkout, leads to nothing but a place in the
repository of the checkout. -/
def LeadsIn (depth : Nat) (bytes : ByteArray) : Prop :=
  ∀ text path, String.fromUTF8? bytes = some text →
    without? Depot.siteLead (firstLine text) = some path →
    ∃ rest, stepsOf path = (false, List.replicate depth .up ++ .name repositoryDirName :: rest) ∧
      Stays 0 rest

theorem apart_eq {w : Location} (hw : repositoryDirName ∉ w) (v : Location) : ∀ root : Location,
    apart (root ++ w) (root ++ repositoryDirName :: v) = (w, repositoryDirName :: v)
  | [] => by
    cases w with
    | nil => rfl
    | cons a w => exact if_neg fun h : a = repositoryDirName => hw (h ▸ List.mem_cons_self)
  | name :: root => by
    rw [List.cons_append, List.cons_append, apart, if_pos rfl, apart_eq hw v root]

theorem toList_intercalate_slash : ∀ {names : List String}, names ≠ [] →
    ("/".intercalate names ++ "/").toList = names.flatMap fun n => n.toList ++ ['/']
  | [], h => (h rfl).elim
  | [n], _ => by simp [String.intercalate_singleton]
  | n :: m :: names, _ => by
    have ih := toList_intercalate_slash (List.cons_ne_nil m names)
    rw [String.toList_append] at ih
    rw [String.intercalate_cons_of_ne_nil (List.cons_ne_nil m names), List.flatMap_cons, ← ih]
    simp

/-- The line of a text that starts with the lead, after the lead. -/
theorem without?_siteLead {text : List Char} :
    without? Depot.siteLead (firstLine (String.ofList (Depot.siteLead.toList ++ text))) =
      some (String.ofList (text.takeWhile (· ≠ '\n'))) := by
  have hlead : Depot.siteLead.toList.all (· ≠ '\n') = true := by decide +kernel
  rw [without?, firstLine, String.toList_ofList, String.toList_ofList,
    List.takeWhile_append_of_pos (List.all_eq_true.mp hlead), if_pos (by simp), List.drop_left]

/-- The text that leads to a repository has a line with a slash after each name. -/
theorem siteText_eq {root w : Location} (hw : repositoryDirName ∉ w) (v : Location) :
    siteText { directory := root ++ repositoryDirName :: v, files := root ++ w } =
      String.ofList (Depot.siteLead.toList ++
        (w.map (fun _ => "..") ++ repositoryDirName :: v).flatMap fun n => n.toList ++ ['/']) := by
  rw [← String.toList_inj, String.toList_ofList,
    ← toList_intercalate_slash (List.append_ne_nil_of_right_ne_nil _ (List.cons_ne_nil _ _)),
    siteText, apart_eq hw]
  dsimp only
  rw [String.append_assoc, String.toList_append]

/-- The line goes up to the top of the checkout, and then into its repository. -/
theorem stepsOf_siteLine (w v : Location) :
    stepsOf (String.ofList (((w.map (fun _ => "..") ++ repositoryDirName :: v).flatMap
      fun n => n.toList ++ ['/']).takeWhile (· ≠ '\n'))) =
      (false, List.replicate w.length .up ++ .name repositoryDirName :: lineSteps v) := by
  have hups : ∀ n ∈ w.map (fun _ => ".."), '/' ∉ n.toList ∧ '\n' ∉ n.toList := by
    intro n hn
    obtain ⟨_, -, rfl⟩ := List.mem_map.mp hn
    decide
  have hup : stepOf "..".toList = .up := by decide
  have hsteps : lineSteps (w.map (fun _ => "..") ++ repositoryDirName :: v) =
      List.replicate w.length .up ++ .name repositoryDirName :: lineSteps v := by
    rw [lineSteps_append hups, lineSteps_cons (by decide) (by decide),
      stepOf_name (by decide +kernel), List.map_const', List.map_replicate, hup]
  rw [← hsteps]
  cases w with
  | nil => exact stepsOf_line (by decide) _
  | cons a w => exact stepsOf_line (n := "..") (by decide) _

/-- What is written for a submodule leads into the repository of the checkout. -/
theorem leadsIn_siteText {root w inner name : Location} (hw : repositoryDirName ∉ w)
    (hinner : ∀ n ∈ inner, IsName n ∧ '\n' ∉ n.toList)
    (hname : ∀ n ∈ name, '/' ∉ n.toList ∧ n ≠ "..") :
    LeadsIn w.length (siteText
      { directory := root ++ repositoryDirName :: (inner ++ "modules" :: name)
        files := root ++ w }).toUTF8 := by
  intro text path ht hp
  rw [fromUTF8?_toUTF8] at ht
  obtain rfl := Option.some.inj ht
  rw [siteText_eq hw, without?_siteLead] at hp
  obtain rfl := Option.some.inj hp
  refine ⟨lineSteps (inner ++ "modules" :: name), stepsOf_siteLine w _, ?_⟩
  have hin : ∀ n ∈ inner, '/' ∉ n.toList ∧ '\n' ∉ n.toList := fun n hn =>
    ⟨(hinner n hn).1.2.2.2, (hinner n hn).2⟩
  rw [lineSteps_append hin, lineSteps_cons (by decide) (by decide),
    stepOf_name (by decide +kernel)]
  refine stays_names_append (fun n hn => (hinner n hn).1) ?_
  exact stays_lineSteps (Nat.succ_pos _) hname

/-- Where a file that leads into the repository of a checkout leads to. -/
theorem exists_of_leadsIn {d : Depot} {root w : Location}
    (hfree : ∀ r target, d.disk.top.layout (root ++ [repositoryDirName] ++ r) ≠
      some (.link target))
    {bytes : ByteArray} (h : LeadsIn w.length bytes) {text path : String}
    (ht : String.fromUTF8? bytes = some text)
    (hp : without? Depot.siteLead (firstLine text) = some path) {found : Location × Node}
    (hs : d.statFrom (root ++ w) path = some found) :
    ∃ v, found.1 = root ++ repositoryDirName :: v ∧ ∀ n ∈ v, IsName n ∧ '\n' ∉ n.toList := by
  obtain ⟨l, n⟩ := found
  obtain ⟨rest, hsteps, hstays⟩ := h text path ht hp
  have hline : '\n' ∉ path.toList := by
    intro hmem
    unfold without? firstLine at hp
    split at hp
    · obtain rfl := Option.some.inj hp
      rw [String.toList_ofList, String.toList_ofList] at hmem
      simpa using List.mem_takeWhile_imp (List.mem_of_mem_drop hmem)
    · cases hp
  have hwalk := Depot.walk_of_statFrom hs
  rw [hsteps] at hwalk
  have hwalk := walk_ups (by simpa using hwalk)
  rw [walk_name] at hwalk
  split at hwalk
  · split at hwalk
    · split at hwalk <;> simp at hwalk
    · rename_i target hlink
      exact (hfree [] target (by rwa [List.append_nil])).elim
    · rw [← List.append_nil (root ++ [repositoryDirName])] at hwalk
      have hstays : Stays ([] : List String).length rest := hstays
      obtain ⟨v, hl, hin⟩ := walk_stays hfree hstays hwalk
      refine ⟨v, hl.trans (List.append_assoc ..), fun m hm => ?_⟩
      have hmem : .name m ∈ (stepsOf path).2 := by
        rw [hsteps]
        exact List.mem_append_right _ (List.mem_cons_of_mem _ ((hin m hm).resolve_left (by simp)))
      exact ⟨isName_of_mem_stepsOf hmem, fun hc => hline (mem_of_mem_stepsOf hmem hc)⟩
  · cases hwalk
  · cases hwalk

end Submodule

end Scaffold
