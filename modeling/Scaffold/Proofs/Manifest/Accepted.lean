import Mathlib.Tactic.SplitIfs
import Scaffold.Manifest

/-!
# Manifests that are accepted

A text is accepted when it decodes and passes the checks (`exists_decoded_of_ofText`). The
check of the questions passes exactly the lists in which every question has a name of its own
(`offendingQuestion_eq_ok_iff`), and else it reports the first question that has none
(`offendingQuestion_eq_error_iff`). So what is accepted and what is reported can be said without
the checks (`Violates`, `ofText_spec`).
-/

namespace Scaffold

namespace Manifest

/-- The questions pass the check if all of them have names, no two the same one, and none of
them one that was seen before. -/
theorem offendingQuestion_eq_ok_iff :
    ∀ (qs : List Question) (seen : List String), offendingQuestion seen qs = .ok () ↔
      (∀ q ∈ qs, q.name ≠ "" ∧ q.name ∉ seen) ∧ (qs.map Question.name).Nodup
  | [], seen => by simp [offendingQuestion]
  | q :: rest, seen => by
    rw [offendingQuestion]
    by_cases hq : q.name = ""
    · simp [hq]
    by_cases hs : q.name ∈ seen
    · simp [hq, hs]
    have hempty : q.name.isEmpty = false := by simpa using hq
    have hcontains : seen.contains q.name = false := by simpa using hs
    rw [hempty, hcontains, if_neg Bool.false_ne_true, if_neg Bool.false_ne_true,
      offendingQuestion_eq_ok_iff rest, List.forall_mem_cons]
    simp only [List.mem_cons, not_or, List.map_cons, List.nodup_cons, List.mem_map, not_exists,
      not_and]
    constructor
    · rintro ⟨hrest, hnd⟩
      exact ⟨⟨⟨hq, hs⟩, fun p hp => ⟨(hrest p hp).1, (hrest p hp).2.2⟩⟩,
        fun p hp => (hrest p hp).2.1, hnd⟩
    · rintro ⟨⟨-, hrest⟩, hne, hnd⟩
      exact ⟨fun p hp => ⟨(hrest p hp).1, hne p hp, (hrest p hp).2⟩, hnd⟩

/-- The questions of a manifest that passes the checks have names of their own. -/
theorem nodup_names_of_validate {m : Manifest} (h : m.validate = .ok ()) :
    (m.prompt.questions.map Question.name).Nodup := by
  unfold validate at h
  cases ho : offendingQuestion [] m.prompt.questions with
  | error f => simp [ho, bind, Except.bind] at h
  | ok u => exact ((offendingQuestion_eq_ok_iff _ _).mp ho).2

/-- A text is accepted if it decodes and passes the checks. The questions are then asked under
the name of the manifest. -/
theorem exists_decoded_of_ofText {text : String} {m : Manifest} (h : ofText text = .ok m) :
    ∃ m₀ : Manifest, Yaml.decodeText decode text = .ok m₀ ∧ m₀.validate = .ok () ∧
      m = { m₀ with prompt := { m₀.prompt with name := m₀.name } } := by
  unfold ofText at h
  cases hd : Yaml.decodeText (decode (σ := _)) text with
  | error f =>
    rw [hd] at h
    cases h
  | ok m₀ =>
    rw [hd] at h
    change (m₀.validate >>= fun _ =>
      pure { m₀ with prompt := { m₀.prompt with name := m₀.name } }) = Except.ok m at h
    cases hv : m₀.validate with
    | error f =>
      rw [hv] at h
      cases h
    | ok u =>
      rw [hv] at h
      exact ⟨m₀, rfl, hv, (Except.ok.inj h).symm⟩

theorem nodup_names_of_ofText {text : String} {m : Manifest} (h : ofText text = .ok m) :
    (m.prompt.questions.map Question.name).Nodup := by
  obtain ⟨m₀, -, hv, rfl⟩ := exists_decoded_of_ofText h
  exact nodup_names_of_validate hv

/-! ## What is reported -/

/-- The check of the questions reports the first one that has no name, or that of an earlier one
or of one that was seen before. -/
theorem offendingQuestion_eq_error_iff {f : Fault} :
    ∀ (qs : List Question) (seen : List String), offendingQuestion seen qs = .error f ↔
      ∃ before q after, qs = before ++ q :: after ∧ offendingQuestion seen before = .ok () ∧
        (q.name = "" ∧ f = .namelessQuestion ∨
          q.name ≠ "" ∧ (q.name ∈ seen ∨ q.name ∈ before.map Question.name) ∧
            f = .duplicateQuestion q.name)
  | [], seen => by simp [offendingQuestion]
  | p :: rest, seen => by
    have hcons (before : List Question) : offendingQuestion seen (p :: before) =
        if p.name.isEmpty then .error .namelessQuestion
        else if seen.contains p.name then .error (.duplicateQuestion p.name)
        else offendingQuestion (p.name :: seen) before := rfl
    have hmem (name : String) (before : List Question) :
        name ∈ p.name :: seen ∨ name ∈ before.map Question.name ↔
          name ∈ seen ∨ name ∈ (p :: before).map Question.name := by
      rw [List.map_cons, List.mem_cons, List.mem_cons, or_assoc, or_left_comm]
    simp only [List.cons_eq_append_iff]
    constructor
    · intro h
      rw [hcons] at h
      split_ifs at h with hempty hseen
      · exact ⟨[], p, rest, Or.inl ⟨rfl, rfl⟩, rfl,
          Or.inl ⟨by simpa using hempty, (Except.error.inj h).symm⟩⟩
      · exact ⟨[], p, rest, Or.inl ⟨rfl, rfl⟩, rfl, Or.inr ⟨by simpa using hempty,
          Or.inl (by simpa using hseen), (Except.error.inj h).symm⟩⟩
      · obtain ⟨before, q, after, rfl, hbefore, hq⟩ :=
          (offendingQuestion_eq_error_iff rest _).mp h
        refine ⟨p :: before, q, after, Or.inr ⟨before, rfl, rfl⟩, ?_, ?_⟩
        · rw [hcons, if_neg hempty, if_neg hseen, hbefore]
        · rwa [← hmem]
    · rintro ⟨before, q, after, ⟨rfl, heq⟩ | ⟨tail, rfl, rfl⟩, hbefore, hq⟩
      · obtain ⟨rfl, rfl⟩ := List.cons.inj heq
        rw [hcons]
        rcases hq with ⟨hq, rfl⟩ | ⟨hne, hseen, rfl⟩
        · rw [if_pos (by simpa using hq)]
        · rw [if_neg (by simpa using hne), if_pos (by simpa using hseen)]
      · rw [hcons] at hbefore ⊢
        split_ifs at hbefore with hempty hseen
        rw [if_neg hempty, if_neg hseen, offendingQuestion_eq_error_iff]
        rw [← hmem] at hq
        exact ⟨tail, q, after, rfl, hbefore, hq⟩

/-- Whether all questions have names, and no two the same one. -/
structure NamedApart (qs : List Question) : Prop where
  names : ∀ q ∈ qs, q.name ≠ ""
  distinct : (qs.map Question.name).Nodup

/-- Whether a manifest has nothing to report : its questions have names of their own, and its fill
rules have files. -/
structure Sound (m : Manifest) : Prop where
  questions : NamedApart m.prompt.questions
  files : ∀ r ∈ m.fill, r.file ≠ ""

/-- What there is to report first. A missing file counts after all questions. -/
inductive Violates (m : Manifest) : Fault → Prop
  | nameless {before after : List Question} {q : Question} :
    m.prompt.questions = before ++ q :: after → NamedApart before → q.name = "" →
    Violates m .namelessQuestion
  | duplicate {before after : List Question} {q : Question} :
    m.prompt.questions = before ++ q :: after → NamedApart before → q.name ≠ "" →
    q.name ∈ before.map Question.name → Violates m (.duplicateQuestion q.name)
  | fill {before after : List FillRule} {r : FillRule} :
    NamedApart m.prompt.questions → m.fill = before ++ r :: after →
    (∀ r' ∈ before, r'.file ≠ "") → r.file = "" → Violates m (.fillWithoutFile r.gate)

/-- The manifest whose questions are asked under its own name. -/
def named (m : Manifest) : Manifest := { m with prompt := { m.prompt with name := m.name } }

theorem offendingQuestion_nil_iff (qs : List Question) :
    offendingQuestion [] qs = .ok () ↔ NamedApart qs := by
  rw [offendingQuestion_eq_ok_iff]
  exact ⟨fun h => ⟨fun q hq => (h.1 q hq).1, h.2⟩,
    fun h => ⟨fun q hq => ⟨h.names q hq, List.not_mem_nil⟩, h.distinct⟩⟩

theorem validate_eq (m : Manifest) : m.validate =
    match offendingQuestion [] m.prompt.questions with
    | .error f => .error f
    | .ok _ =>
      match m.fill.find? (·.file.isEmpty) with
      | some rule => .error (.fillWithoutFile rule.gate)
      | none => .ok () := by
  unfold validate
  cases offendingQuestion [] m.prompt.questions <;> rfl

theorem validate_eq_ok_iff (m : Manifest) : m.validate = .ok () ↔ m.Sound := by
  have hfiles : m.fill.find? (·.file.isEmpty) = none ↔ ∀ r ∈ m.fill, r.file ≠ "" := by
    simp [List.find?_eq_none]
  rw [validate_eq]
  cases hq : offendingQuestion [] m.prompt.questions with
  | error f =>
    refine iff_of_false (by simp) fun h => ?_
    rw [(offendingQuestion_nil_iff _).mpr h.questions] at hq
    cases hq
  | ok _ =>
    have hnamed := (offendingQuestion_nil_iff _).mp hq
    cases hf : m.fill.find? (·.file.isEmpty) with
    | some r =>
      refine iff_of_false (by simp) fun h => ?_
      rw [hfiles.mpr h.files] at hf
      cases hf
    | none => exact iff_of_true rfl ⟨hnamed, hfiles.mp hf⟩

theorem validate_eq_error_iff (m : Manifest) (f : Fault) :
    m.validate = .error f ↔ m.Violates f := by
  constructor
  · intro h
    rw [validate_eq] at h
    split at h
    · rename_i f' hq
      obtain rfl := Except.error.inj h
      obtain ⟨before, q, after, hsplit, hbefore, ⟨hnone, rfl⟩ | ⟨hne, hmem, rfl⟩⟩ :=
        (offendingQuestion_eq_error_iff _ _).mp hq
      · exact .nameless hsplit ((offendingQuestion_nil_iff _).mp hbefore) hnone
      · exact .duplicate hsplit ((offendingQuestion_nil_iff _).mp hbefore) hne
          (hmem.resolve_left List.not_mem_nil)
    · rename_i hq
      split at h
      · rename_i r hr
        obtain rfl := Except.error.inj h
        obtain ⟨hempty, before, after, hsplit, hbefore⟩ := List.find?_eq_some_iff_append.mp hr
        exact .fill ((offendingQuestion_nil_iff _).mp hq) hsplit
          (fun r' hr' => by simpa using hbefore r' hr') (by simpa using hempty)
      · cases h
  · intro h
    rw [validate_eq]
    cases h with
    | nameless hsplit hbefore hq =>
      rw [(offendingQuestion_eq_error_iff _ _).mpr
        ⟨_, _, _, hsplit, (offendingQuestion_nil_iff _).mpr hbefore, Or.inl ⟨hq, rfl⟩⟩]
    | duplicate hsplit hbefore hne hmem =>
      rw [(offendingQuestion_eq_error_iff _ _).mpr ⟨_, _, _, hsplit,
        (offendingQuestion_nil_iff _).mpr hbefore, Or.inr ⟨hne, Or.inr hmem, rfl⟩⟩]
    | @fill before after r hnamed hsplit hbefore hr =>
      have hfind : m.fill.find? (·.file.isEmpty) = some r :=
        List.find?_eq_some_iff_append.mpr ⟨by simpa using hr, before, after, hsplit,
          fun r' hr' => by simpa using hbefore r' hr'⟩
      rw [(offendingQuestion_nil_iff _).mpr hnamed, hfind]

/-- A text is accepted just if it decodes as a manifest whose questions have names of their own and
whose fill rules have files. Then it is read as what was decoded, but for the name that its
questions are asked under. A text that is refused is reported for what keeps it from being decoded
or, when it decodes, for the first thing that is wrong with its questions, and for the first fill
rule without a file when nothing is. -/
theorem ofText_spec (text : String) :
    (∀ m, ofText text = .ok m ↔
      ∃ m₀, Yaml.decodeText decode text = .ok m₀ ∧ m₀.Sound ∧ m = m₀.named) ∧
    ∀ f, ofText text = .error f ↔
      (∃ cause, Yaml.decodeText (decode (σ := Yaml.Place)) text = .error cause ∧
        f = .unreadable cause) ∨
      ∃ m₀, Yaml.decodeText decode text = .ok m₀ ∧ m₀.Violates f := by
  cases hd : Yaml.decodeText (decode (σ := Yaml.Place)) text with
  | error cause =>
    have hrefused : ofText text = .error (.unreadable cause) := by
      unfold ofText
      rw [hd]
      rfl
    rw [hrefused]
    simp [eq_comm]
  | ok m₀ =>
    have hread : ofText text = m₀.validate.map fun _ => m₀.named := by
      unfold ofText
      rw [hd]
      change (m₀.validate >>= fun _ => pure m₀.named) = _
      cases m₀.validate <;> rfl
    rw [hread]
    cases hv : m₀.validate with
    | error f =>
      have hf := (validate_eq_error_iff m₀ f).mp hv
      refine ⟨fun m => iff_of_false (by simp [Except.map]) ?_, fun f' => ?_⟩
      · rintro ⟨m₁, hm₁, hsound, -⟩
        obtain rfl := Except.ok.inj hm₁
        rw [(validate_eq_ok_iff m₀).mpr hsound] at hv
        cases hv
      · constructor
        · intro h
          obtain rfl := Except.error.inj h
          exact Or.inr ⟨m₀, rfl, hf⟩
        · rintro (⟨cause, hcause, -⟩ | ⟨m₁, hm₁, hf'⟩)
          · cases hcause
          · obtain rfl := Except.ok.inj hm₁
            exact congrArg _ (hv.symm.trans ((validate_eq_error_iff m₀ f').mpr hf'))
    | ok _ =>
      have hsound := (validate_eq_ok_iff m₀).mp hv
      refine ⟨fun m => ?_, fun f => iff_of_false (by simp [Except.map]) ?_⟩
      · constructor
        · intro h
          exact ⟨m₀, rfl, hsound, (Except.ok.inj h).symm⟩
        · rintro ⟨m₁, hm₁, -, rfl⟩
          obtain rfl := Except.ok.inj hm₁
          rfl
      · rintro (⟨cause, hcause, -⟩ | ⟨m₁, hm₁, hf⟩)
        · cases hcause
        · obtain rfl := Except.ok.inj hm₁
          rw [(validate_eq_error_iff m₀ f).mpr hf] at hv
          cases hv

end Manifest

end Scaffold
