import Mathlib.Data.List.Pairwise
import Scaffold.Proofs.Fill.Failed

/-!
# The order of fill rules

A rule reads and writes one file, and what it makes of the file depends on nothing else in the
project (`FillRule.filled?`). So two rules that name different files can be run one way or the
other (`FillRule.pass?_comm`), and on a project without links files are different just if their
paths are. A list of rules for different files then comes to the same end in every order : all of
its orders succeed or none does, and the ones that succeed leave the same project and have filled
the same files, each in its own order (`Template.fill_perm`). Which rule fails first may well
depend on the order.
-/

namespace Scaffold

open Scaffold.Path Disk

/-- Whether two rules name different files, as far as their paths stay in the project. -/
def FillRule.NamesOther (r r' : FillRule) : Prop :=
  escapes r.file = false → escapes r'.file = false → namesOf r.file ≠ namesOf r'.file

instance : Std.Symm FillRule.NamesOther := ⟨fun _ _ h hr' hr => (h hr hr').symm⟩

/-- What a rule puts in the place of the file that it names, if it succeeds. -/
def FillRule.filled? (c : Context) (r : FillRule) (files : Layout) : Option Item :=
  if escapes r.file then none
  else
    match files (namesOf r.file) with
    | some (.file bytes executable) => (rendered? c bytes).map (.file · executable)
    | _ => none

/-- What a rule leaves of the files of a project, if it does not fail. -/
def FillRule.pass? (answers : AnswerMap) (info : TemplateInfo) (env : Entries String)
    (r : FillRule) (files : Layout) : Option Layout :=
  let c : Context := { answers, template := info, vars := r.vars, env }
  match Gate.evaluate c r.gate with
  | .error _ => none
  | .ok false => some files
  | .ok true => (r.filled? c files).map (files.set (namesOf r.file))

variable {t : Template} {answers : AnswerMap} {info : TemplateInfo} {env : Entries String}

/-! ## Two rules -/

theorem Disk.Layout.set_comm {a b : Location} (h : a ≠ b) (x y : Item) (layout : Layout) :
    (layout.set a x).set b y = (layout.set b y).set a x := by
  funext l
  simp only [Layout.set]
  split_ifs with hb ha
  · exact absurd (ha.symm.trans hb) h
  · rfl
  · rfl
  · rfl

theorem FillRule.toOption_fillIn (c : Context) (r : FillRule) (files : Layout) :
    (r.fillIn c files).toOption = (r.filled? c files).map (files.set (namesOf r.file)) := by
  unfold fillIn filled? rendered?
  split_ifs
  · rfl
  · cases files (namesOf r.file) with
    | none => rfl
    | some item =>
      cases item with
      | dir | link target => rfl
      | file bytes executable =>
        dsimp only
        cases String.fromUTF8? bytes with
        | none => rfl
        | some source =>
          dsimp only [Option.bind_some]
          cases FillRule.render c source <;> rfl

/-- What a rule makes of its file does not depend on other files. -/
theorem FillRule.filled?_set {r : FillRule} {names : Location} (h : namesOf r.file ≠ names)
    (c : Context) (item : Item) (files : Layout) :
    r.filled? c (files.set names item) = r.filled? c files := by
  rw [filled?, filled?, Layout.set, if_neg h]

variable (answers info env) in
/-- A rule fails on all projects, or leaves them all as they are, or replaces its file. -/
theorem FillRule.pass?_cases (r : FillRule) :
    (r.pass? answers info env = fun _ => none) ∨ r.pass? answers info env = some ∨
      escapes r.file = false ∧ ∃ c, ∀ files, r.pass? answers info env files =
        (r.filled? c files).map (files.set (namesOf r.file)) := by
  unfold pass?
  dsimp only
  generalize ({ answers, template := info, vars := r.vars, env } : Context) = c
  rcases Gate.evaluate c r.gate with f | ⟨_ | _⟩
  · exact Or.inl rfl
  · exact Or.inr (Or.inl rfl)
  · cases hr : escapes r.file with
    | true => exact Or.inl (funext fun files => by rw [filled?, if_pos hr, Option.map_none])
    | false => exact Or.inr (Or.inr ⟨rfl, c, fun _ => rfl⟩)

/-- Rules that name different files may change places. -/
theorem FillRule.pass?_comm {r r' : FillRule} (h : r.NamesOther r') (files : Layout) :
    (r.pass? answers info env files).bind (r'.pass? answers info env) =
      (r'.pass? answers info env files).bind (r.pass? answers info env) := by
  rcases r.pass?_cases answers info env with hr | hr | ⟨hr, c, hrun⟩
  · rw [hr, Option.bind_fun_none, Option.bind_none]
  · rw [hr, Option.bind_some, Option.bind_fun_some]
  · rcases r'.pass?_cases answers info env with hr' | hr' | ⟨hr', c', hrun'⟩
    · rw [hr', Option.bind_fun_none, Option.bind_none]
    · rw [hr', Option.bind_some, Option.bind_fun_some]
    · have hne := h hr hr'
      rw [hrun, hrun']
      cases hitem : r.filled? c files with
      | none =>
        cases r'.filled? c' files <;> simp [hrun, filled?_set hne, hitem]
      | some item =>
        cases hitem' : r'.filled? c' files with
        | none => simp [hrun', filled?_set hne.symm, hitem']
        | some item' =>
          simp [hrun, hrun', filled?_set hne, filled?_set hne.symm, hitem, hitem',
            Layout.set_comm hne]

/-! ## All rules -/

theorem exists_ok_iff {ε α : Type} {result : Except ε α} :
    (∃ a, result = .ok a) ↔ result.toOption.isSome = true := by
  cases result with
  | error f => exact iff_of_false nofun Bool.false_ne_true
  | ok a => exact iff_of_true ⟨a, rfl⟩ rfl

variable (answers info env) in
/-- What rules leave of the files of a project, if none of them fails. -/
def passes? (rules : List FillRule) (files : Layout) : Option Layout :=
  rules.foldl (fun files r => files.bind (r.pass? answers info env)) (some files)

variable (answers info env) in
/-- Rules that name different files may be run in any order. -/
theorem passes?_perm {rules rules' : List FillRule} (hperm : rules.Perm rules')
    (happart : rules.Pairwise FillRule.NamesOther) (files : Layout) :
    passes? answers info env rules files = passes? answers info env rules' files := by
  unfold passes?
  refine hperm.foldl_eq' (fun r hr r' hr' files => ?_) (some files)
  by_cases heq : r = r'
  · rw [heq]
  · cases files with
    | none => simp only [Option.bind_none]
    | some files =>
      rw [Option.bind_some, Option.bind_some]
      exact FillRule.pass?_comm (happart.forall hr hr' heq) files

/-- The rules come to their end just if the pass over them succeeds. -/
theorem passes?_eq_some_iff {final : Layout} : ∀ {rules : List FillRule} {files : Layout},
    passes? answers info env rules files = some final ↔
      ∃ filled, fillFiles answers info env rules files = (.ok filled, final)
  | [], files => by simp [passes?, fillFiles]
  | r :: rest, files => by
    have hnone : rest.foldl (fun files r => files.bind (r.pass? answers info env)) none = none :=
      foldl_bind_none _ rest
    rw [passes?, List.foldl_cons, Option.bind_some, FillRule.pass?, fillFiles]
    dsimp only
    generalize ({ answers, template := info, vars := r.vars, env } : Context) = c
    rcases Gate.evaluate c r.gate with f | ⟨_ | _⟩
    · simp [hnone]
    · exact passes?_eq_some_iff
    · dsimp only
      rw [← FillRule.toOption_fillIn]
      cases r.fillIn c files with
      | error f => simp [Except.toOption, hnone]
      | ok files' =>
        have hrest {final : Layout} : passes? answers info env rest files' = some final ↔ _ :=
          passes?_eq_some_iff
        dsimp only
        generalize fillFiles answers info env rest files' = pass at hrest ⊢
        refine hrest.trans ?_
        obtain ⟨f | filled, final'⟩ := pass <;> simp [Except.map]

variable (answers env) in
/-- A pass over the rules of a project succeeds just if the rules come to their end on its
files, and then what it leaves of the project is what they leave. -/
theorem Settled.passes?_eq {place : Location} {d : Disk} (h : Settled t place d)
    (rules : List FillRule) :
    let pass := fillRules t answers env rules [] d
    passes? answers t.manifest.info env rules (d.top.layout.below place) =
      pass.1.toOption.map fun _ => pass.2.top.layout.below place := by
  intro pass
  obtain ⟨hresult, hfiles, -⟩ := h.fillRules_eq answers env rules []
  dsimp only [pass]
  rw [hresult, hfiles]
  generalize hpass : fillFiles answers t.manifest.info env rules (d.top.layout.below place) = files
  obtain ⟨f | filled, final⟩ := files
  · refine Option.eq_none_iff_forall_ne_some.mpr fun final' h => ?_
    obtain ⟨filled, hok⟩ := passes?_eq_some_iff.mp h
    rw [hpass] at hok
    cases hok
  · exact passes?_eq_some_iff.mpr ⟨filled, hpass⟩

/-- Passes that leave the same of a project leave the same of the whole disk. -/
theorem Settled.layout_eq_of_below {place : Location} {d : Disk} (h : Settled t place d)
    {rules rules' filled filled' : List FillRule}
    (hbelow : (fillRules t answers env rules filled d).2.top.layout.below place =
      (fillRules t answers env rules' filled' d).2.top.layout.below place) (l : Location) :
    (fillRules t answers env rules filled d).2.top.layout l =
      (fillRules t answers env rules' filled' d).2.top.layout l := by
  by_cases hl : place <+: l
  · obtain ⟨r, rfl⟩ := hl
    exact congrFun hbelow r
  · have hout (rules filled : List FillRule) :
        (fillRules t answers env rules filled d).2.top.layout l = d.top.layout l :=
      h.layout_fillRules filled fun r _ _ heq => hl ⟨namesOf r.file, heq.symm⟩
    rw [hout, hout]

/-! ## A template -/

theorem Settled.of_stat {place : Location} {d : Disk} {tree : Node}
    (hproject : d.stat t.project = .ok (place, tree))
    (hfree : ∀ r target, tree.layout r ≠ some (.link target)) : Settled t place d := by
  refine ⟨⟨tree, hproject⟩, fun r target => ?_⟩
  rw [Node.layout_append (at?_of_stat hproject)]
  exact hfree r target

/-- Rules with different paths name different files. -/
theorem FillRule.namesOther_of_paths {root : Path} {r r' : FillRule}
    (h : ∀ path, root.containedJoin r.file = some path →
      root.containedJoin r'.file ≠ some path) : r.NamesOther r' := by
  intro hr hr' hnames
  have hpath := h (root.joinAll (namesOf r.file))
  rw [containedJoin_eq, containedJoin_eq, hr, hr', hnames] at hpath
  exact hpath rfl rfl

/-- The order of rules for different files of a project without links makes no difference. They
succeed in one order just if they do in the other one. Then the same rules are returned, in the
order that they stand in, and the project is left the same, and so is everything else. -/
theorem Template.fill_perm (t : Template) (answers : AnswerMap) (env : Entries String)
    {d : Disk} {place : Location} {tree : Node} (hproject : d.stat t.project = .ok (place, tree))
    (hfree : ∀ r target, tree.layout r ≠ some (.link target)) {rules rules' : List FillRule}
    (hperm : rules.Perm rules')
    (happart : rules.Pairwise fun r r' => ∀ path,
      t.project.containedJoin r.file = some path → t.project.containedJoin r'.file ≠ some path) :
    let pass := (t.withFill rules).fill answers env d
    let pass' := (t.withFill rules').fill answers env d
    ((∃ filled, pass.1 = .ok filled) ↔ ∃ filled', pass'.1 = .ok filled') ∧
    ∀ filled filled', pass.1 = .ok filled → pass'.1 = .ok filled' →
      filled = rules.filter (·.isOpen t answers env) ∧
      filled' = rules'.filter (·.isOpen t answers env) ∧ filled.Perm filled' ∧
      (∃ tree₁ tree₂, pass.2.stat t.project = .ok (place, tree₁) ∧
        pass'.2.stat t.project = .ok (place, tree₂) ∧ tree₁.layout = tree₂.layout) ∧
      ∀ l, pass.2.top.layout l = pass'.2.top.layout l := by
  have hsettled : Settled t place d := .of_stat hproject hfree
  have hpass : (t.withFill rules).fill answers env d = fillRules t answers env rules [] d :=
    fillRules_withFill rules rules [] d
  have hpass' : (t.withFill rules').fill answers env d = fillRules t answers env rules' [] d :=
    fillRules_withFill rules' rules' [] d
  have hsame := passes?_perm answers t.manifest.info env hperm
    (happart.imp FillRule.namesOther_of_paths) (d.top.layout.below place)
  rw [hsettled.passes?_eq, hsettled.passes?_eq] at hsame
  obtain ⟨tree₁, htree₁⟩ := (hsettled.fillRules_eq answers env rules []).2.2.stat
  obtain ⟨tree₂, htree₂⟩ := (hsettled.fillRules_eq answers env rules' []).2.2.stat
  rw [hpass, hpass']
  intro pass pass'
  refine ⟨?_, fun filled filled' h h' => ?_⟩
  · rw [exists_ok_iff, exists_ok_iff, ← Option.isSome_map, hsame, Option.isSome_map]
  · have hfilled : filled = rules.filter (·.isOpen t answers env) := filled_of_fillRules h
    have hfilled' : filled' = rules'.filter (·.isOpen t answers env) := filled_of_fillRules h'
    have hbelow : pass.2.top.layout.below place = pass'.2.top.layout.below place := by
      rw [h, h'] at hsame
      exact Option.some.inj hsame
    refine ⟨hfilled, hfilled', ?_, ⟨tree₁, tree₂, htree₁, htree₂, ?_⟩,
      hsettled.layout_eq_of_below hbelow⟩
    · rw [hfilled, hfilled']
      exact hperm.filter _
    · funext r
      have hr := congrFun hbelow r
      rwa [Layout.below, Layout.below, Node.layout_append (at?_of_stat htree₁),
        Node.layout_append (at?_of_stat htree₂)] at hr

/-- Two rules that need each other. -/
def mutualRules : List FillRule :=
  [{ file := "a.txt", vars := [("x", .str "y")], needs := ["b.txt"] },
    { file := ".//b.txt", needs := ["a.txt"] }]

/-- Rules that need each other can change places, and the files are filled all the same. -/
theorem fill_perm_mutualRules :
    (∃ filled, ((fillTemplate.withFill mutualRules.reverse).fill [] [] fillDisk).1 = .ok filled) ∧
      ((fillTemplate.withFill mutualRules.reverse).fill [] [] fillDisk).2.top.layout
        ["app", "a.txt"] = some (.file "y".toUTF8 true) := by
  let project : Node := .dir [("a.txt", .file "\x7b\x7b Vars.x \x7d\x7d".toUTF8 true),
    ("b.txt", .file "b".toUTF8 false)]
  have hproject : fillDisk.stat fillTemplate.project = .ok (["app"], project) := rfl
  have hplain : project.Plain := by
    refine .dir (by decide) (by decide) ?_
    simp only [List.forall_mem_cons]
    exact ⟨.file _ _, .file _ _, by simp⟩
  have happart : mutualRules.Pairwise fun r r' => ∀ path,
      fillTemplate.project.containedJoin r.file = some path →
        fillTemplate.project.containedJoin r'.file ≠ some path := by
    refine List.pairwise_pair.mpr fun path h h' => ?_
    exact absurd (h.trans h'.symm) (by decide +kernel)
  obtain ⟨hiff, hsame⟩ := fillTemplate.fill_perm [] [] hproject hplain.layout_ne_link
    (List.reverse_perm mutualRules).symm happart
  have hok : ((fillTemplate.withFill mutualRules).fill [] [] fillDisk).1.toOption.isSome = true ∧
      ((fillTemplate.withFill mutualRules).fill [] [] fillDisk).2.top.layout ["app", "a.txt"] =
        some (.file "y".toUTF8 true) := by
    decide +kernel
  obtain ⟨hsome, hlayout⟩ := hok
  obtain ⟨filled, h⟩ := exists_ok_iff.mpr hsome
  obtain ⟨filled', h'⟩ := hiff.mp ⟨filled, h⟩
  obtain ⟨-, -, -, -, hevery⟩ := hsame filled filled' h h'
  exact ⟨⟨filled', h'⟩, (hevery ["app", "a.txt"]).symm.trans hlayout⟩

end Scaffold
