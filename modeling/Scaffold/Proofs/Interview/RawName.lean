import Scaffold.Interview.Script
import Scaffold.Proofs.Interview.Course
import Scaffold.Proofs.Manifest.Accepted
import Mathlib

/-!
# Answers before their transforms

An accepted answer is stored twice, under the name of its question and, as it was given, under
the raw name. Questions of an accepted manifest have names of their own, so no two of them
store under one name or under one raw name. But a question may be named as the raw name of
another one, and then both store under that name. `Kept` says that every answer is still there
when the interview is over, and that a question that was skipped has left nothing.

`kept_iff` is the exact condition : each question that is named as the raw name of an answered
one was answered too, with what the other one was answered before its transform.
`Manifest.ofText` does not ask for that (`not_kept_of_raw_name`).
-/

namespace Scaffold

namespace Interview

open Script

variable {σ : Type}

/-- Every answer that was given stands under the name of its question and, as it was given,
under the raw name. A question that was not put has nothing under its name. -/
structure Kept (qs : List Question) (given : List (Question × Answer)) (final : AnswerMap) :
    Prop where
  own : ∀ g ∈ given, Entries.get? g.1.name final = some (g.1.transform.apply g.2)
  raw : ∀ g ∈ given, Entries.get? (AnswerMap.rawName g.1.name) final = some g.2
  skipped : ∀ q ∈ qs, q ∉ given.map Prod.fst → Entries.get? q.name final = none

/-- No question that is named as the raw name of an answered one says anything else under that
name : it was answered, and its answer became what the other one's was before its transform. -/
def RawNamesAgree (qs : List Question) (given : List (Question × Answer)) : Prop :=
  ∀ g ∈ given, ∀ q ∈ qs, q.name = AnswerMap.rawName g.1.name →
    ∃ raw, (q, raw) ∈ given ∧ q.transform.apply raw = g.2

theorem rawName_inj {a b : String} (h : AnswerMap.rawName a = AnswerMap.rawName b) : a = b := by
  have hl := congrArg String.toList h
  simp only [AnswerMap.rawName, String.toList_append, List.append_cancel_left_eq] at hl
  exact String.toList_inj.mp hl

/-! ## What is stored under a name -/

/-- All that is stored under a name is one value. -/
def OnlyStores (given : List (Question × Answer)) (name : String) (value : Answer) : Prop :=
  ∀ g ∈ given, (g.1.name = name → g.1.transform.apply g.2 = value) ∧
    (AnswerMap.rawName g.1.name = name → g.2 = value)

theorem get?_recordAnswer_of_only {g : Question × Answer} {name : String} {value : Answer}
    (h : OnlyStores [g] name value) (answers : AnswerMap) :
    Entries.get? name (recordAnswer answers g) =
      if g.1.name = name ∨ AnswerMap.rawName g.1.name = name then some value
      else Entries.get? name answers := by
  obtain ⟨hown, hraw⟩ := h g (by simp)
  rw [recordAnswer, AnswerMap.get?_record]
  by_cases h₁ : g.1.name = name
  · simp [h₁, hown h₁]
  · by_cases h₂ : AnswerMap.rawName g.1.name = name
    · simp [h₁, h₂, hraw h₂]
    · simp [h₁, h₂]

/-- A name under which only one value is stored has that value, or what it had before. -/
theorem get?_recordAll_of_only {name : String} {value : Answer} :
    ∀ {given : List (Question × Answer)} (answers : AnswerMap), OnlyStores given name value →
      Entries.get? name (recordAll answers given) =
        if ∃ g ∈ given, g.1.name = name ∨ AnswerMap.rawName g.1.name = name then some value
        else Entries.get? name answers
  | [], answers, _ => by simp
  | g :: given, answers, h => by
    have hhead : OnlyStores [g] name value := fun g' hg' => h g' (by simp_all)
    have htail : OnlyStores given name value := fun g' hg' => h g' (by simp [hg'])
    rw [recordAll_cons, get?_recordAll_of_only _ htail, get?_recordAnswer_of_only hhead]
    by_cases hg : g.1.name = name ∨ AnswerMap.rawName g.1.name = name
    · rw [if_pos hg, ite_self, if_pos ⟨g, List.mem_cons_self, hg⟩]
    · simp only [List.exists_mem_cons_iff, hg, false_or, if_false]

/-! ## Questions with names of their own -/

section
variable {qs : List Question} {given : List (Question × Answer)}

theorem eq_of_name_eq (hnd : (qs.map Question.name).Nodup) {p q : Question} (hp : p ∈ qs)
    (hq : q ∈ qs) (h : p.name = q.name) : p = q :=
  List.inj_on_of_nodup_map hnd hp hq h

/-- A question has one answer. -/
theorem raw_eq_of_mem (hnd : (qs.map Question.name).Nodup) (hs : (given.map Prod.fst).Sublist qs)
    {q : Question} {a b : Answer} (ha : (q, a) ∈ given) (hb : (q, b) ∈ given) : a = b := by
  have hnd' : (given.map fun g => g.1.name).Nodup := by
    have := (hs.map Question.name).nodup hnd
    rwa [List.map_map] at this
  have := List.inj_on_of_nodup_map hnd' ha hb rfl
  exact (Prod.mk.inj this).2

/-- What stands under the names of an answered question, where the raw names agree. -/
theorem onlyStores_own (hnd : (qs.map Question.name).Nodup)
    (hs : (given.map Prod.fst).Sublist qs) (hagree : RawNamesAgree qs given)
    {g : Question × Answer} (hg : g ∈ given) :
    OnlyStores given g.1.name (g.1.transform.apply g.2) := by
  have hmem : ∀ g' ∈ given, g'.1 ∈ qs := fun g' hg' => hs.subset (List.mem_map_of_mem hg')
  intro g' hg'
  constructor
  · intro hname
    obtain ⟨q, a⟩ := g
    obtain ⟨q', a'⟩ := g'
    obtain rfl : q' = q := eq_of_name_eq hnd (hmem _ hg') (hmem _ hg) hname
    rw [raw_eq_of_mem hnd hs hg' hg]
  · intro hname
    obtain ⟨raw, hraw, ht⟩ := hagree g' hg' g.1 (hmem g hg) hname.symm
    rw [← ht, raw_eq_of_mem hnd hs hraw hg]

theorem onlyStores_raw (hnd : (qs.map Question.name).Nodup)
    (hs : (given.map Prod.fst).Sublist qs) (hagree : RawNamesAgree qs given)
    {g : Question × Answer} (hg : g ∈ given) :
    OnlyStores given (AnswerMap.rawName g.1.name) g.2 := by
  have hmem : ∀ g' ∈ given, g'.1 ∈ qs := fun g' hg' => hs.subset (List.mem_map_of_mem hg')
  intro g' hg'
  constructor
  · intro hname
    obtain ⟨raw, hraw, ht⟩ := hagree g hg g'.1 (hmem g' hg') hname
    rw [← ht, raw_eq_of_mem hnd hs hraw hg']
  · intro hname
    obtain ⟨q, a⟩ := g
    obtain ⟨q', a'⟩ := g'
    obtain rfl : q' = q := eq_of_name_eq hnd (hmem _ hg') (hmem _ hg) (rawName_inj hname)
    exact raw_eq_of_mem hnd hs hg' hg

/-- Of answers to questions with names of their own all are kept just if the raw names agree. -/
theorem kept_recordAll_iff (hnd : (qs.map Question.name).Nodup)
    (hs : (given.map Prod.fst).Sublist qs) :
    Kept qs given (recordAll [] given) ↔ RawNamesAgree qs given := by
  constructor
  · intro hk g hg q hq hname
    by_cases hput : q ∈ given.map Prod.fst
    · obtain ⟨⟨q', raw⟩, hmem, rfl⟩ := List.mem_map.mp hput
      have hown := hk.own _ hmem
      rw [hname, hk.raw g hg] at hown
      exact ⟨raw, hmem, (Option.some.inj hown).symm⟩
    · have hnone := hk.skipped q hq hput
      rw [hname, hk.raw g hg] at hnone
      cases hnone
  · intro hagree
    refine ⟨fun g hg => ?_, fun g hg => ?_, fun q hq hput => ?_⟩
    · rw [get?_recordAll_of_only [] (onlyStores_own hnd hs hagree hg), if_pos ⟨g, hg, Or.inl rfl⟩]
    · rw [get?_recordAll_of_only [] (onlyStores_raw hnd hs hagree hg), if_pos ⟨g, hg, Or.inr rfl⟩]
    · have hnot : ∀ g ∈ given, ¬(g.1.name = q.name ∨ AnswerMap.rawName g.1.name = q.name) := by
        rintro g hg (hname | hname)
        · have hgq : g.1 ∈ qs := hs.subset (List.mem_map_of_mem hg)
          exact hput (List.mem_map.mpr ⟨g, hg, eq_of_name_eq hnd hgq hq hname⟩)
        · obtain ⟨raw, hraw, -⟩ := hagree g hg q hq hname.symm
          exact hput (List.mem_map.mpr ⟨_, hraw, rfl⟩)
      have honly : OnlyStores given q.name (.flag true) := fun g hg =>
        ⟨fun h => (hnot g hg (Or.inl h)).elim, fun h => (hnot g hg (Or.inr h)).elim⟩
      rw [get?_recordAll_of_only [] honly, if_neg fun ⟨g, hg, h⟩ => hnot g hg h]
      rfl

end

/-! ## Interviews for accepted manifests -/

/-- In an interview that succeeds the accepted answers are those that the respondent gave. -/
theorem exists_given_of_ask? {r : Respondent σ} {p : Prompt} {info : TemplateInfo}
    {env : Entries String} {store store' : AnswerStore} {s s' : σ} {final : AnswerMap}
    (h : ask? r p info env store s = some (.ok final, store', s')) :
    ∃ (given : List (Question × Answer)) (s₁ : σ), announce r p s = (.ok (), s₁) ∧
      Puts r s₁ (given.map accepted) s' ∧
      Course info env p.questions (store.answers p.name) (given.map accepted) (.ok final) ∧
      final = recordAll (store.answers p.name) given ∧
      (given.map Prod.fst).Sublist p.questions := by
  obtain ⟨ho, -⟩ := ask?_eq_some_iff.mp h
  unfold outcome? at ho
  split at ho
  · simp at ho
  · rename_i s₁ ha
    obtain ⟨xs, hc, hp⟩ := askAll?_eq_some_iff.mp ho
    obtain ⟨given, rfl, hf, hs⟩ := hc.exists_given
    exact ⟨given, s₁, ha, hp, hc, hf, hs⟩

/-- When the questions of an accepted manifest are answered, from no answers, every answer is
kept as it was given and as it became, and no question that was skipped has an entry, just if
the questions that are named as raw names of others agree with them. -/
theorem kept_iff {text : String} {m : Manifest} (hm : Manifest.ofText text = .ok m)
    {r : Respondent σ} {info : TemplateInfo} {env : Entries String} {store store' : AnswerStore}
    {s s' : σ} {final : AnswerMap} (hstore : store.answers m.prompt.name = [])
    (h : ask? r m.prompt info env store s = some (.ok final, store', s')) :
    ∃ (given : List (Question × Answer)) (s₁ : σ), announce r m.prompt s = (.ok (), s₁) ∧
      Puts r s₁ (given.map accepted) s' ∧
      Course info env m.prompt.questions [] (given.map accepted) (.ok final) ∧
      (Kept m.prompt.questions given final ↔ RawNamesAgree m.prompt.questions given) := by
  obtain ⟨given, s₁, ha, hp, hc, hf, hs⟩ := exists_given_of_ask? h
  rw [hstore] at hc hf
  refine ⟨given, s₁, ha, hp, hc, ?_⟩
  rw [hf]
  exact kept_recordAll_iff (Manifest.nodup_names_of_ofText hm) hs

/-! ## A question that is named as the raw name of another one -/

/-- A manifest whose second question is named as the raw name of its first one. -/
def clashText : String := "prompt:\n- {name: A, type: Input}\n- {name: RawA, type: Input}\n"

/-- The two questions of that manifest. -/
def clashFirst : Question := { name := "A", kind := .input }

@[inherit_doc clashFirst]
def clashSecond : Question := { name := "RawA", kind := .input }

/-- What is stored when the questions are answered in two ways. -/
def clashAnswers : AnswerMap := [("A", .text "x"), ("RawA", .text "y"), ("RawRawA", .text "y")]

/-- Two replies, one for each question. -/
def clashScript : Script := { replies := [.answer (.text "x"), .answer (.text "y")] }

theorem exists_clash :
    ∃ m, Manifest.ofText clashText = .ok m ∧ m.prompt = ⟨"", [clashFirst, clashSecond]⟩ := by
  have h : (Manifest.ofText clashText).toOption.map Manifest.prompt =
      some ⟨"", [clashFirst, clashSecond]⟩ := by
    decide +kernel
  cases hm : Manifest.ofText clashText with
  | error e => simp [hm, Except.toOption] at h
  | ok m => exact ⟨m, rfl, by simpa [hm, Except.toOption] using h⟩

/-- Both questions are put and both replies accepted. -/
theorem ask?_clash :
    ∃ store' s', ask? (respondent {}).toRespondent ⟨"", [clashFirst, clashSecond]⟩ {} [] {}
        clashScript = some (.ok clashAnswers, store', s') ∧
      Puts (respondent {}).toRespondent (clashScript.note (.begun ""))
        [(clashFirst, .ok (.text "x")), (clashSecond, .ok (.text "y"))] s' := by
  have hfirst : (respondent {}).askOne? clashFirst (clashScript.note (.begun "")) =
      some (.ok (.text "x"), ⟨[.answer (.text "y")], [.asked "A" "A", .begun ""]⟩) := by
    cbv
  refine ⟨⟨[("", clashAnswers)]⟩, ⟨[], [.asked "RawA" "RawA", .asked "A" "A", .begun ""]⟩, ?_,
    .cons hfirst (.cons ?_ .nil)⟩
  · cbv
  · cbv

/-- An interview for such a manifest succeeds with both replies, and what the first question was
answered is no longer there : the answer to the second one stands in its place. -/
theorem not_kept_of_raw_name :
    ∃ m, Manifest.ofText clashText = .ok m ∧ m.prompt.questions = [clashFirst, clashSecond] ∧
      (∃ store' s', ask? (respondent {}).toRespondent m.prompt {} [] {} clashScript =
          some (.ok clashAnswers, store', s') ∧
        Puts (respondent {}).toRespondent (clashScript.note (.begun ""))
          [(clashFirst, .ok (.text "x")), (clashSecond, .ok (.text "y"))] s') ∧
      ¬Kept m.prompt.questions [(clashFirst, .text "x"), (clashSecond, .text "y")]
        clashAnswers := by
  obtain ⟨m, hm, hp⟩ := exists_clash
  refine ⟨m, hm, by rw [hp], by rw [hp]; exact ask?_clash, fun hk => ?_⟩
  have hraw := hk.raw _ List.mem_cons_self
  exact absurd hraw (by decide +kernel)

/-- The interview of `ask?_clash` keeps what was answered just if the raw names agree. -/
theorem kept_iff_of_clash :
    ∃ m, Manifest.ofText clashText = .ok m ∧
      ∃ (given : List (Question × Answer)) (s₁ s' : Script),
        Puts (respondent {}).toRespondent s₁ (given.map accepted) s' ∧
        Course {} [] m.prompt.questions [] (given.map accepted) (.ok clashAnswers) ∧
        (Kept m.prompt.questions given clashAnswers ↔
          RawNamesAgree m.prompt.questions given) := by
  obtain ⟨m, hm, hp⟩ := exists_clash
  obtain ⟨store', s', h, -⟩ := ask?_clash
  rw [← hp] at h
  obtain ⟨given, s₁, -, hputs, hc, hiff⟩ := kept_iff hm (by rw [hp]; rfl) h
  exact ⟨m, hm, given, s₁, s', hputs, hc, hiff⟩

end Interview

end Scaffold
