import Scaffold.Fill
import Scaffold.Proofs.Disk.Changes

/-!
# A pass over fill rules

A rule reads a file, renders what is in it and writes the result in its place. What it writes
to is what it has read, so nothing but the reading and the rendering can fail
(`FillRule.run_eq`). What each rule that is run keeps a pass keeps (`fillRules_invariant`). A
pass that ends well has filled the files of the rules whose gates are open
(`filled_of_fillRules`), and one that fails has done what the rules before the failing one do
(`exists_fails_of_fillRules`).
-/

namespace Scaffold

open Scaffold.Path Disk

theorem Disk.Action.perform_writeBytes (p : Path) (bytes : ByteArray) (d : Disk) :
    (writeBytes p bytes).perform d =
      match d.resolve true p with
      | .error f => (.error f, d)
      | .ok ⟨l, some (.file _ executable)⟩ =>
        (.ok (), { d with top := d.top.put (some (.file bytes executable)) l })
      | .ok ⟨l, none⟩ => (.ok (), { d with top := d.top.put (some (.file bytes false)) l })
      | .ok _ => (.error .isDirectory, d) := by
  unfold writeBytes
  rw [perform_bind]
  have hl : (look (·.resolve true p)).perform d = (d.resolve true p, d) := rfl
  rw [hl]
  cases d.resolve true p with
  | error f => rfl
  | ok found =>
    obtain ⟨l, n⟩ := found
    cases n with
    | none => rfl
    | some n => cases n <;> rfl

/-- What is read from a disk as text. -/
theorem Disk.readText_eq (d : Disk) (p : Path) :
    d.readText p =
      match d.stat p with
      | .error f => .error f
      | .ok (_, .file bytes _) => (String.fromUTF8? bytes).elim (.error .notText) .ok
      | .ok _ => .error .isDirectory := by
  unfold readText readBytes
  cases d.stat p with
  | error f => rfl
  | ok r =>
    obtain ⟨l, n⟩ := r
    cases n with
    | dir entries => rfl
    | link target => rfl
    | file bytes executable =>
      simp only [bind, Except.bind, pure, Except.pure]
      cases String.fromUTF8? bytes <;> rfl

/-- What a rule does to the file that it names. -/
theorem FillRule.run_eq (t : Template) (c : Context) (r : FillRule) (d : Disk) :
    r.run t c d =
      match t.project.containedJoin r.file with
      | none => .error (.fill r.file .outsideProject)
      | some path =>
        match d.stat path with
        | .error f => .error (.fillIo r.file f)
        | .ok (l, .file bytes executable) =>
          match String.fromUTF8? bytes with
          | none => .error (.fillIo r.file .notText)
          | some source =>
            match FillRule.render c source with
            | .error f => .error (.fill r.file (.stencil f))
            | .ok text =>
              .ok { d with top := d.top.put (some (.file text.toUTF8 executable)) l }
        | .ok _ => .error (.fillIo r.file .isDirectory) := by
  unfold FillRule.run
  cases t.project.containedJoin r.file with
  | none => rfl
  | some path =>
    simp only [Disk.readText_eq]
    cases hstat : d.stat path with
    | error f => rfl
    | ok found =>
      obtain ⟨l, n⟩ := found
      cases n with
      | dir entries => rfl
      | link target => rfl
      | file bytes executable =>
        simp only [bind, Except.bind]
        cases String.fromUTF8? bytes with
        | none => rfl
        | some source =>
          simp only [Option.elim_some, Except.mapError]
          cases FillRule.render c source with
          | error f => rfl
          | ok text =>
            have hwrite : (Action.writeText path text).perform d =
                (.ok (), { d with top := d.top.put (some (.file text.toUTF8 executable)) l }) := by
              unfold Action.writeText
              rw [Action.perform_writeBytes, stat_eq_ok.mp hstat]
            simp only [hwrite, pure, Except.pure]

/-- A rule that succeeds replaces the content of the file that its names lead to. -/
theorem FillRule.run_eq_ok {t : Template} {c : Context} {r : FillRule} {d d' : Disk}
    (h : r.run t c d = .ok d') :
    ∃ l bytes executable content,
      d.stat (t.project.joinAll (namesOf r.file)) = .ok (l, .file bytes executable) ∧
      d' = { d with top := d.top.put (some (.file content executable)) l } := by
  rw [FillRule.run_eq] at h
  split at h
  · cases h
  · rename_i path hpath
    obtain rfl := eq_joinAll_of_containedJoin hpath
    split at h
    · cases h
    · rename_i l bytes executable hstat
      split at h
      · cases h
      · split at h
        · cases h
        · exact ⟨l, bytes, executable, _, hstat, (Except.ok.inj h).symm⟩
    · cases h

/-! ## Rule after rule -/

/-- Whether the gate of a rule is open. -/
def FillRule.isOpen (t : Template) (answers : AnswerMap) (env : Entries String)
    (r : FillRule) : Bool :=
  match Gate.evaluate (r.context t answers env) r.gate with
  | .ok true => true
  | _ => false

/-- A template with other fill rules. -/
def Template.withFill (t : Template) (rules : List FillRule) : Template :=
  { t with manifest := { t.manifest with fill := rules } }

variable {t : Template} {answers : AnswerMap} {env : Entries String}

/-- What each rule that is run keeps a pass keeps. -/
theorem fillRules_invariant {P : Disk → Prop} :
    ∀ {rules : List FillRule} (filled : List FillRule) {d : Disk},
      (∀ r ∈ rules, r.isOpen t answers env = true → ∀ d d' : Disk,
        r.run t (r.context t answers env) d = .ok d' → P d → P d') →
      P d → P (fillRules t answers env rules filled d).2
  | [], _, _, _, h => h
  | r :: rest, filled, d, hstep, h => by
    have hrest : ∀ r' ∈ rest, r'.isOpen t answers env = true → ∀ d d' : Disk,
        r'.run t (r'.context t answers env) d = .ok d' → P d → P d' := fun r' hr' =>
      hstep r' (List.mem_cons_of_mem r hr')
    rw [fillRules]
    cases hg : Gate.evaluate (r.context t answers env) r.gate with
    | error f => exact h
    | ok opened =>
      cases opened with
      | false => exact fillRules_invariant filled hrest h
      | true =>
        have hopen : r.isOpen t answers env = true := by simp [FillRule.isOpen, hg]
        cases hrun : r.run t (r.context t answers env) d with
        | error f => exact h
        | ok d' =>
          exact fillRules_invariant _ hrest (hstep r List.mem_cons_self hopen d d' hrun h)

/-- The other rules of a template do not matter to a rule. -/
theorem fillRules_withFill (others : List FillRule) :
    ∀ (rules filled : List FillRule) (d : Disk),
      fillRules (t.withFill others) answers env rules filled d =
        fillRules t answers env rules filled d
  | [], _, _ => rfl
  | r :: rest, filled, d => by
    have hcontext : r.context (t.withFill others) answers env = r.context t answers env := rfl
    have hrun (c : Context) (d : Disk) : r.run (t.withFill others) c d = r.run t c d := rfl
    simp only [fillRules, fillRules_withFill others rest, hcontext, hrun]

/-- A pass that ends well has filled the files of the rules whose gates are open, in order. -/
theorem filled_of_fillRules :
    ∀ {rules filled : List FillRule} {d : Disk} {all : List FillRule},
      (fillRules t answers env rules filled d).1 = .ok all →
      all = filled ++ rules.filter (·.isOpen t answers env)
  | [], filled, d, all, h => by
    rw [← Except.ok.inj h, List.filter_nil, List.append_nil]
  | r :: rest, filled, d, all, h => by
    rw [fillRules] at h
    cases hg : Gate.evaluate (r.context t answers env) r.gate with
    | error f =>
      rw [hg] at h
      cases h
    | ok opened =>
      rw [hg] at h
      cases opened with
      | false =>
        rw [List.filter_cons_of_neg (by simp [FillRule.isOpen, hg])]
        exact filled_of_fillRules h
      | true =>
        rw [List.filter_cons_of_pos (by simp [FillRule.isOpen, hg])]
        cases hrun : r.run t (r.context t answers env) d with
        | error f =>
          simp only [hrun] at h
          cases h
        | ok d' =>
          simp only [hrun] at h
          rw [filled_of_fillRules h, List.append_assoc, List.singleton_append]

/-- Whether a rule fails, where running it has some outcome : its gate cannot be decided, or is
open and the outcome is a failure. -/
def FillRule.Fails {α : Type} (c : Context) (r : FillRule) (outcome : Except Failure α)
    (f : Failure) : Prop :=
  (∃ cause, Gate.evaluate c r.gate = .error cause ∧ f = .gate cause) ∨
    Gate.evaluate c r.gate = .ok true ∧ outcome = .error f

/-- A pass that fails has done what the rules before some rule do, and that rule fails. -/
theorem exists_fails_of_fillRules :
    ∀ {rules filled : List FillRule} {d : Disk} {f : Failure},
      (fillRules t answers env rules filled d).1 = .error f →
      let d' := (fillRules t answers env rules filled d).2
      ∃ before r after all, rules = before ++ r :: after ∧
        fillRules t answers env before filled d = (.ok all, d') ∧
        r.Fails (r.context t answers env) (r.run t (r.context t answers env) d') f
  | [], _, _, _, h => by cases h
  | r :: rest, filled, d, f, h => by
    rw [fillRules] at h ⊢
    cases hg : Gate.evaluate (r.context t answers env) r.gate with
    | error cause =>
      rw [hg] at h
      obtain rfl := Except.error.inj h
      exact ⟨[], r, rest, filled, rfl, rfl, Or.inl ⟨cause, hg, rfl⟩⟩
    | ok opened =>
      rw [hg] at h
      cases opened with
      | false =>
        obtain ⟨before, r', after, all, rfl, hbefore, hr'⟩ := exists_fails_of_fillRules h
        refine ⟨r :: before, r', after, all, rfl, ?_, hr'⟩
        simp only [fillRules, hg, hbefore]
      | true =>
        cases hrun : r.run t (r.context t answers env) d with
        | error f' =>
          simp only [hrun] at h ⊢
          obtain rfl := Except.error.inj h
          exact ⟨[], r, rest, filled, rfl, rfl, Or.inr ⟨hg, hrun⟩⟩
        | ok d' =>
          simp only [hrun] at h ⊢
          obtain ⟨before, r', after, all, rfl, hbefore, hr'⟩ := exists_fails_of_fillRules h
          refine ⟨r :: before, r', after, all, rfl, ?_, hr'⟩
          simp only [fillRules, hg, hrun, hbefore]

end Scaffold
