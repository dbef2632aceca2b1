import Scaffold.Copy

/-!
# What a pass over copy rules reports

A pass sorts the rules it comes to into those that were applied, were skipped and failed. The
order of the manifest is kept in each of the three (`Interleaved`), and which rules are skipped
is said by their gates alone. Only the directory of the project and the gates can stop a pass :
`Template.copy_report` says when it ends well, what it reports then, and that a pass that is
stopped at a rule has done what the rules before it do.
-/

namespace Scaffold

open Disk

/-- A list of three lists' elements, those of each in their order. -/
inductive Interleaved {α : Type} : List α → List α → List α → List α → Prop
  | nil : Interleaved [] [] [] []
  | first {x : α} {xs as bs cs : List α} : Interleaved xs as bs cs →
    Interleaved (x :: xs) (x :: as) bs cs
  | second {x : α} {xs as bs cs : List α} : Interleaved xs as bs cs →
    Interleaved (x :: xs) as (x :: bs) cs
  | third {x : α} {xs as bs cs : List α} : Interleaved xs as bs cs →
    Interleaved (x :: xs) as bs (x :: cs)

/-- Whether the gate of a rule is shut. -/
def CopyRule.isShut (t : Template) (answers : AnswerMap) (env : Entries String)
    (r : CopyRule) : Bool :=
  match Gate.passes answers t.manifest.info env r.gate with
  | .ok false => true
  | _ => false

/-- Whether the gate of a rule can be decided. -/
def CopyRule.Decided (t : Template) (answers : AnswerMap) (env : Entries String)
    (r : CopyRule) : Prop :=
  ∃ opened, Gate.passes answers t.manifest.info env r.gate = .ok opened

/-- A template with other copy rules. -/
def Template.withCopy (t : Template) (rules : List CopyRule) : Template :=
  { t with manifest := { t.manifest with copy := rules } }

/-- A report with what came of more rules. -/
def CopyReport.append (a b : CopyReport) : CopyReport :=
  { applied := a.applied ++ b.applied
    skipped := a.skipped ++ b.skipped
    failed := a.failed ++ b.failed }

variable {t : Template} {answers : AnswerMap} {env : Entries String}

/-! ## Rules whose gates can be decided -/

/-- The other rules of a template do not matter to a rule. -/
theorem copyRules_withCopy (others : List CopyRule) :
    ∀ (rules : List CopyRule) (report : CopyReport) (d : Disk),
      copyRules (t.withCopy others) answers env rules report d =
        copyRules t answers env rules report d
  | [], _, _ => rfl
  | r :: rest, report, d => by
    have hinfo : (t.withCopy others).manifest.info = t.manifest.info := rfl
    have hrun : r.run (t.withCopy others) = r.run t := rfl
    simp only [copyRules, copyRules_withCopy others rest, hinfo, hrun]

/-- Rules whose gates can be decided are all run, and each of them is in one list of the report. -/
theorem copyRules_of_decided :
    ∀ {rules : List CopyRule} (report : CopyReport) (d : Disk),
      (∀ r ∈ rules, r.Decided t answers env) →
      ∃ more d', copyRules t answers env rules report d = ({ report := report.append more }, d') ∧
        Interleaved rules more.applied more.skipped (more.failed.map Prod.fst) ∧
        more.skipped = rules.filter (·.isShut t answers env)
  | [], report, d, _ => ⟨{}, d, by simp [copyRules, CopyReport.append], .nil, rfl⟩
  | r :: rest, report, d, h => by
    have hrest : ∀ r' ∈ rest, r'.Decided t answers env := fun r' hr' =>
      h r' (List.mem_cons_of_mem r hr')
    obtain ⟨opened, hg⟩ := h r List.mem_cons_self
    cases opened with
    | false =>
      obtain ⟨more, d', hrun, hint, hskip⟩ :=
        copyRules_of_decided { report with skipped := report.skipped ++ [r] } d hrest
      refine ⟨{ more with skipped := r :: more.skipped }, d', ?_, hint.second, ?_⟩
      · simp [copyRules, hg, hrun, CopyReport.append]
      · rw [List.filter_cons_of_pos (by simp [CopyRule.isShut, hg]), hskip]
    | true =>
      have hopen : ¬r.isShut t answers env = true := by simp [CopyRule.isShut, hg]
      rw [List.filter_cons_of_neg hopen]
      cases hr : (r.run t).perform d with
      | mk result d₁ =>
        cases result with
        | ok _ =>
          obtain ⟨more, d', hrun, hint, hskip⟩ :=
            copyRules_of_decided { report with applied := report.applied ++ [r] } d₁ hrest
          refine ⟨{ more with applied := r :: more.applied }, d', ?_, hint.first, hskip⟩
          simp [copyRules, hg, hr, hrun, CopyReport.append]
        | error f =>
          obtain ⟨more, d', hrun, hint, hskip⟩ :=
            copyRules_of_decided { report with failed := report.failed ++ [(r, f)] } d₁ hrest
          refine ⟨{ more with failed := (r, f) :: more.failed }, d', ?_, hint.third, hskip⟩
          simp [copyRules, hg, hr, hrun, CopyReport.append]

/-- A pass over rules goes on from where the pass over the first of them ended, unless that one
was stopped. -/
theorem copyRules_append (rest : List CopyRule) :
    ∀ (before : List CopyRule) (report : CopyReport) (d : Disk),
      copyRules t answers env (before ++ rest) report d =
        match copyRules t answers env before report d with
        | (⟨report', none⟩, d') => copyRules t answers env rest report' d'
        | stopped => stopped
  | [], _, _ => rfl
  | r :: before, report, d => by
    simp only [List.cons_append, copyRules]
    cases Gate.passes answers t.manifest.info env r.gate with
    | error f => rfl
    | ok opened =>
      cases opened with
      | false => exact copyRules_append rest before _ d
      | true =>
        cases (r.run t).perform d with
        | mk result d₁ => cases result <;> exact copyRules_append rest before _ d₁

/-- A pass goes on with the report that it has. -/
theorem copyRules_report (t : Template) (answers : AnswerMap) (env : Entries String) :
    ∀ (rules : List CopyRule) (report : CopyReport) (d : Disk),
      ∃ more, (copyRules t answers env rules report d).1.report = report.append more
  | [], report, _ => ⟨{}, by simp [copyRules, CopyReport.append]⟩
  | r :: rest, report, d => by
    rw [copyRules]
    cases Gate.passes answers t.manifest.info env r.gate with
    | error f => exact ⟨{}, by simp [CopyReport.append]⟩
    | ok opened =>
      cases opened with
      | false =>
        obtain ⟨more, hmore⟩ := copyRules_report t answers env rest
          { report with skipped := report.skipped ++ [r] } d
        exact ⟨{ more with skipped := r :: more.skipped }, by simp [hmore, CopyReport.append]⟩
      | true =>
        cases (r.run t).perform d with
        | mk result d₁ =>
          cases result with
          | ok _ =>
            obtain ⟨more, hmore⟩ := copyRules_report t answers env rest
              { report with applied := report.applied ++ [r] } d₁
            exact ⟨{ more with applied := r :: more.applied }, by
              simp [hmore, CopyReport.append]⟩
          | error f =>
            obtain ⟨more, hmore⟩ := copyRules_report t answers env rest
              { report with failed := report.failed ++ [(r, f)] } d₁
            exact ⟨{ more with failed := (r, f) :: more.failed }, by
              simp [hmore, CopyReport.append]⟩

/-- What each rule keeps a pass keeps. -/
theorem copyRules_invariant (answers : AnswerMap) (env : Entries String) {P : Disk → Prop}
    (hstep : ∀ (r : CopyRule) (d : Disk), P d → P ((r.run t).perform d).2) :
    ∀ (rules : List CopyRule) (report : CopyReport) {d : Disk}, P d →
      P (copyRules t answers env rules report d).2
  | [], _, _, h => h
  | r :: rest, report, d, h => by
    have hr := hstep r d h
    rw [copyRules]
    cases Gate.passes answers t.manifest.info env r.gate with
    | error f => exact h
    | ok opened =>
      cases opened with
      | false => exact copyRules_invariant answers env hstep rest _ h
      | true =>
        cases hrun : (r.run t).perform d with
        | mk result d₁ =>
          rw [hrun] at hr
          cases result <;> exact copyRules_invariant answers env hstep rest _ hr

/-- All gates of some rules can be decided, or there is a first one that cannot. -/
theorem decided_or_exists_undecided (t : Template) (answers : AnswerMap) (env : Entries String) :
    ∀ rules : List CopyRule, (∀ r ∈ rules, r.Decided t answers env) ∨
      ∃ before r after cause, rules = before ++ r :: after ∧
        (∀ r' ∈ before, r'.Decided t answers env) ∧
        Gate.passes answers t.manifest.info env r.gate = .error cause
  | [] => Or.inl (by simp)
  | r :: rest => by
    cases hg : Gate.passes answers t.manifest.info env r.gate with
    | error cause => exact Or.inr ⟨[], r, rest, cause, rfl, by simp, hg⟩
    | ok opened =>
      rcases decided_or_exists_undecided t answers env rest with
        h | ⟨before, r', after, cause, rfl, hbefore, hr'⟩
      · exact Or.inl (List.forall_mem_cons.mpr ⟨⟨opened, hg⟩, h⟩)
      · exact Or.inr ⟨r :: before, r', after, cause, rfl,
          List.forall_mem_cons.mpr ⟨⟨opened, hg⟩, hbefore⟩, hr'⟩

/-! ## A template -/

/-- When the directory of the project can be made and all gates can be decided, the pass ends
well. -/
theorem copy_of_decided {d : Disk} (hd : ((Action.makeDirs t.project).perform d).1 = .ok ())
    (h : ∀ r ∈ t.manifest.copy, r.Decided t answers env) :
    ∃ report d', t.copy answers env d = ({ report }, d') ∧
      Interleaved t.manifest.copy report.applied report.skipped (report.failed.map Prod.fst) ∧
      report.skipped = t.manifest.copy.filter (·.isShut t answers env) := by
  obtain ⟨report, d', hrun, hint, hskip⟩ :=
    copyRules_of_decided {} ((Action.makeDirs t.project).perform d).2 h
  refine ⟨report, d', ?_, hint, hskip⟩
  unfold Template.copy
  cases hm : (Action.makeDirs t.project).perform d with
  | mk result d₁ =>
    rw [hm] at hd hrun
    obtain rfl : result = .ok () := hd
    simpa [CopyReport.append] using hrun

/-- A gate that cannot be decided stops the pass where the rules before it lead. -/
theorem copy_of_undecided {d : Disk} (hd : ((Action.makeDirs t.project).perform d).1 = .ok ())
    {before after : List CopyRule} {r : CopyRule} {cause : Gate.Fault}
    (hrules : t.manifest.copy = before ++ r :: after)
    (hbefore : ∀ r' ∈ before, r'.Decided t answers env)
    (hr : Gate.passes answers t.manifest.info env r.gate = .error cause) :
    ∃ report d', (t.withCopy before).copy answers env d = ({ report }, d') ∧
      t.copy answers env d = ({ report, stop := some (.gate cause) }, d') := by
  obtain ⟨report, d', hrun, -⟩ := copy_of_decided (t := t.withCopy before) (d := d) hd hbefore
  refine ⟨report, d', hrun, ?_⟩
  unfold Template.copy at hrun ⊢
  cases hm : (Action.makeDirs t.project).perform d with
  | mk result d₁ =>
    have hm' : (Action.makeDirs (t.withCopy before).project).perform d = (result, d₁) := hm
    have hcopy : (t.withCopy before).manifest.copy = before := rfl
    rw [hm] at hd
    rw [hm', hcopy] at hrun
    obtain rfl : result = .ok () := hd
    simp only [copyRules_withCopy] at hrun
    simp only [hrules, copyRules_append, hrun, copyRules, hr]

/-- The disk after some first rules of a template. -/
def Template.after (t : Template) (answers : AnswerMap) (env : Entries String)
    (before : List CopyRule) (d : Disk) : Disk := ((t.withCopy before).copy answers env d).2

/-- Whether a rule is run after others : they do not stop the pass, and its gate is open. -/
def CopyRule.IsRun (t : Template) (answers : AnswerMap) (env : Entries String)
    (before : List CopyRule) (r : CopyRule) (d : Disk) : Prop :=
  ((t.withCopy before).copy answers env d).1.stop = none ∧
    Gate.passes answers t.manifest.info env r.gate = .ok true

theorem after_nil (d : Disk) :
    t.after answers env [] d = ((Action.makeDirs t.project).perform d).2 := by
  have hp : (t.withCopy []).project = t.project := rfl
  have hc : (t.withCopy []).manifest.copy = [] := rfl
  unfold Template.after Template.copy
  rw [hp, hc]
  cases (Action.makeDirs t.project).perform d with
  | mk result d₁ => cases result <;> rfl

/-- A pass over all rules of a template goes on from where the first ones of them led. -/
theorem copy_append (before more : List CopyRule) (d : Disk) :
    (t.withCopy (before ++ more)).copy answers env d =
      match (t.withCopy before).copy answers env d with
      | (⟨report, none⟩, d') => copyRules t answers env more report d'
      | stopped => stopped := by
  have hp (rules : List CopyRule) : (t.withCopy rules).project = t.project := rfl
  have hc (rules : List CopyRule) : (t.withCopy rules).manifest.copy = rules := rfl
  unfold Template.copy
  rw [hp, hp, hc, hc]
  cases (Action.makeDirs t.project).perform d with
  | mk result d₁ =>
    cases result with
    | error f => rfl
    | ok _ =>
      simp only [copyRules_withCopy]
      exact copyRules_append more before {} d₁

/-- A pass over the first rules of a template and one more. -/
theorem copy_concat (before : List CopyRule) (r : CopyRule) (d : Disk) :
    (t.withCopy (before ++ [r])).copy answers env d =
      match (t.withCopy before).copy answers env d with
      | (⟨report, none⟩, d') => copyRules t answers env [r] report d'
      | stopped => stopped := copy_append before [r] d

theorem after_concat_of_isRun {before : List CopyRule} {r : CopyRule} {d : Disk}
    (h : r.IsRun t answers env before d) :
    t.after answers env (before ++ [r]) d =
      ((r.run t).perform (t.after answers env before d)).2 := by
  obtain ⟨hstop, hgate⟩ := h
  unfold Template.after
  rw [copy_concat]
  cases hcopy : (t.withCopy before).copy answers env d with
  | mk pass d₁ =>
    obtain ⟨report, stop⟩ := pass
    rw [hcopy] at hstop
    obtain rfl : stop = none := hstop
    simp only [copyRules, hgate]
    cases (r.run t).perform d₁ with
    | mk result d' => cases result <;> rfl

theorem after_concat_of_not_isRun {before : List CopyRule} {r : CopyRule} {d : Disk}
    (h : ¬r.IsRun t answers env before d) :
    t.after answers env (before ++ [r]) d = t.after answers env before d := by
  unfold CopyRule.IsRun at h
  unfold Template.after
  rw [copy_concat]
  cases hcopy : (t.withCopy before).copy answers env d with
  | mk pass d₁ =>
    obtain ⟨report, stop⟩ := pass
    cases stop with
    | some f => rfl
    | none =>
      simp only [copyRules]
      cases hg : Gate.passes answers t.manifest.info env r.gate with
      | error f => rfl
      | ok opened =>
        cases opened with
        | false => rfl
        | true => exact (h ⟨by rw [hcopy], hg⟩).elim

/-- A rule that is run and fails is reported as failed, after what was reported before it. -/
theorem copy_of_run_error {before after : List CopyRule} {f : Fault}
    (hrules : t.manifest.copy = before ++ r :: after) (hrun : r.IsRun t answers env before d)
    (hf : ((r.run t).perform (t.after answers env before d)).1 = .error f) :
    ∃ report more : CopyReport,
      (t.withCopy before).copy answers env d = ({ report }, t.after answers env before d) ∧
      (t.copy answers env d).1.report =
        { report with failed := report.failed ++ [(r, f)] }.append more := by
  obtain ⟨hstop, hgate⟩ := hrun
  have hself : t.withCopy (before ++ r :: after) = t := by rw [← hrules]; rfl
  have hall : (t.withCopy (before ++ r :: after)).copy answers env d =
      match (t.withCopy before).copy answers env d with
      | (⟨report, none⟩, d') => copyRules t answers env (r :: after) report d'
      | stopped => stopped := copy_append before (r :: after) d
  rw [hself] at hall
  unfold Template.after at hf ⊢
  cases hcopy : (t.withCopy before).copy answers env d with
  | mk pass d₁ =>
    obtain ⟨report, stop⟩ := pass
    rw [hcopy] at hstop hall hf
    obtain rfl : stop = none := hstop
    rw [hall]
    simp only [copyRules, hgate]
    cases hr : (r.run t).perform d₁ with
    | mk result d₂ =>
      rw [hr] at hf
      obtain rfl : result = .error f := hf
      obtain ⟨more, hmore⟩ := copyRules_report t answers env after
        { report with failed := report.failed ++ [(r, f)] } d₂
      exact ⟨report, more, rfl, hmore⟩

/-- The three ways in which a pass can go. -/
theorem copy_cases (t : Template) (answers : AnswerMap) (env : Entries String) (d : Disk) :
    (∃ cause d', (Action.makeDirs t.project).perform d = (.error cause, d') ∧
      t.copy answers env d = ({ stop := some (.io cause) }, d')) ∨
    ((Action.makeDirs t.project).perform d).1 = .ok () ∧
      ((∀ r ∈ t.manifest.copy, r.Decided t answers env) ∨
        ∃ before r after cause, t.manifest.copy = before ++ r :: after ∧
          (∀ r' ∈ before, r'.Decided t answers env) ∧
          Gate.passes answers t.manifest.info env r.gate = .error cause) := by
  cases hm : (Action.makeDirs t.project).perform d with
  | mk result d₁ =>
    cases result with
    | error cause =>
      refine Or.inl ⟨cause, d₁, rfl, ?_⟩
      unfold Template.copy
      rw [hm]
    | ok _ => exact Or.inr ⟨rfl, decided_or_exists_undecided t answers env t.manifest.copy⟩

/-- A pass that ends well has made the directory and decided all gates. -/
theorem decided_of_result_eq_ok {d : Disk} {report : CopyReport}
    (h : (t.copy answers env d).1.result = .ok report) :
    ((Action.makeDirs t.project).perform d).1 = .ok () ∧
      ∀ r ∈ t.manifest.copy, r.Decided t answers env := by
  rcases copy_cases t answers env d with
    ⟨cause, d', -, hstop⟩ | ⟨hd, hdec | ⟨before, r, after, cause, hrules, hbefore, hr⟩⟩
  · rw [hstop] at h
    cases h
  · exact ⟨hd, hdec⟩
  · obtain ⟨report', d', -, hstop⟩ := copy_of_undecided hd hrules hbefore hr
    rw [hstop] at h
    cases h

/-- The report of a pass that ends well. -/
theorem interleaved_of_result_eq_ok {d : Disk} {report : CopyReport}
    (h : (t.copy answers env d).1.result = .ok report) :
    Interleaved t.manifest.copy report.applied report.skipped (report.failed.map Prod.fst) ∧
      report.skipped = t.manifest.copy.filter (·.isShut t answers env) := by
  obtain ⟨hd, hdec⟩ := decided_of_result_eq_ok h
  obtain ⟨report', d', hrun, hlists⟩ := copy_of_decided hd hdec
  rw [hrun] at h
  obtain rfl := Except.ok.inj h
  exact hlists

/-- A pass ends well just if the directory of the project can be made and all gates can be
decided ; whatever else happens to a rule does not end it. Each rule is then in one list of the
report, in order, and those with shut gates are the ones that were skipped : on every disk, and
whatever came of the others. A pass that does not end well has met a directory that cannot be
made, or a first gate that cannot be decided. Then it has done what the same template does with
the rules before that one, and no more. -/
theorem Template.copy_report (t : Template) (answers : AnswerMap) (env : Entries String)
    (d : Disk) :
    ((∃ report, (t.copy answers env d).1.result = .ok report) ↔
      ((Action.makeDirs t.project).perform d).1 = .ok () ∧
        ∀ r ∈ t.manifest.copy, r.Decided t answers env) ∧
    (∀ report, (t.copy answers env d).1.result = .ok report →
      Interleaved t.manifest.copy report.applied report.skipped (report.failed.map Prod.fst) ∧
      report.skipped = t.manifest.copy.filter (·.isShut t answers env) ∧
      ∀ (t' : Template) (e : Disk) (report' : CopyReport), t'.manifest = t.manifest →
        (t'.copy answers env e).1.result = .ok report' → report'.skipped = report.skipped) ∧
    ∀ f, (t.copy answers env d).1.result = .error f →
      (∃ cause, f = .io cause ∧
        (Action.makeDirs t.project).perform d = (.error cause, (t.copy answers env d).2)) ∨
      ∃ before r after cause, t.manifest.copy = before ++ r :: after ∧
        (∀ r' ∈ before, r'.Decided t answers env) ∧
        Gate.passes answers t.manifest.info env r.gate = .error cause ∧ f = .gate cause ∧
        (t.withCopy before).copy answers env d =
          ({ report := (t.copy answers env d).1.report }, (t.copy answers env d).2) := by
  refine ⟨⟨fun ⟨report, h⟩ => decided_of_result_eq_ok h, fun ⟨hd, hdec⟩ => ?_⟩, fun report h => ?_,
    fun f h => ?_⟩
  · obtain ⟨report, d', hrun, -⟩ := copy_of_decided hd hdec
    exact ⟨report, by rw [hrun]; rfl⟩
  · obtain ⟨hint, hskip⟩ := interleaved_of_result_eq_ok h
    refine ⟨hint, hskip, fun t' e report' hsame h' => ?_⟩
    obtain ⟨-, hskip'⟩ := interleaved_of_result_eq_ok h'
    simp only [hskip', hskip, CopyRule.isShut, hsame]
  · rcases copy_cases t answers env d with
      ⟨cause, d', hm, hstop⟩ | ⟨hd, hdec | ⟨before, r, after, cause, hrules, hbefore, hr⟩⟩
    · rw [hstop] at h ⊢
      obtain rfl := Except.error.inj h
      exact Or.inl ⟨cause, rfl, hm⟩
    · obtain ⟨report, d', hrun, -⟩ := copy_of_decided hd hdec
      rw [hrun] at h
      cases h
    · obtain ⟨report, d', hrun, hstop⟩ := copy_of_undecided hd hrules hbefore hr
      rw [hstop] at h ⊢
      obtain rfl := Except.error.inj h
      exact Or.inr ⟨before, r, after, cause, hrules, hbefore, hr, rfl, hrun⟩

end Scaffold
