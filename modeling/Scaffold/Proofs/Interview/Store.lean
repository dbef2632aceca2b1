import Scaffold.Interview.Script
import Scaffold.Proofs.Interview.Course
import Mathlib

/-!
# The store over many interviews

One store serves interviews for several templates. `StoreStep` is what is done to it : an
interview, with whoever is asked in it, a commit or a reset. `runSteps` does one step after the
other.

An interview that fails changes no answers, wherever it fails, and one that succeeds changes
those under its own name (`answers_stored`). So the answers under a name come from the steps
that concern the name, on any store that starts with the same answers under it
(`exists_runSteps_filter`).
-/

namespace Scaffold

namespace Interview

open Script

variable {σ : Type}

/-- What is done to a store. An interview comes with the respondent and its state. -/
inductive StoreStep : Type 1 where
  | ask {σ : Type} (r : Respondent σ) (start : σ) (p : Prompt) (info : TemplateInfo)
      (env : Entries String)
  | commit (name : String) (answers : AnswerMap)
  | reset

namespace StoreStep

/-- The store after a step, if the step ends. -/
def perform : StoreStep → AnswerStore → Option AnswerStore
  | ask r start p info env, store => (ask? r p info env store start).map fun o => o.2.1
  | commit name answers, store => some (store.commit name answers)
  | reset, store => some store.reset

/-- Whether a step is about a name. A reset is about every name. -/
def concerns (name : String) : StoreStep → Bool
  | ask _ _ p _ _ => p.name = name
  | commit n _ => n = name
  | reset => true

end StoreStep

/-- The store after some steps, if all of them end. -/
def runSteps : List StoreStep → AnswerStore → Option AnswerStore
  | [], store => some store
  | step :: rest, store => (step.perform store).bind (runSteps rest)

/-- What an interview leaves under each name. -/
theorem answers_stored (p : Prompt) (store : AnswerStore) (result : Except Failure AnswerMap)
    (name : String) : (stored p store result).answers name =
      match result with
      | .ok answers => if p.name = name then answers else store.answers name
      | .error _ => store.answers name := by
  cases result with
  | error f => rfl
  | ok answers => exact AnswerStore.answers_commit store p.name name answers

/-- A step that is not about a name leaves the answers under it. -/
theorem answers_of_not_concerns {step : StoreStep} {name : String} {store store' : AnswerStore}
    (hc : step.concerns name = false) (h : step.perform store = some store') :
    store'.answers name = store.answers name := by
  cases step with
  | ask r start p info env =>
    simp only [StoreStep.concerns, decide_eq_false_iff_not] at hc
    obtain ⟨⟨result, store₁, s⟩, hask, rfl⟩ := Option.map_eq_some_iff.mp h
    obtain ⟨-, rfl⟩ := ask?_eq_some_iff.mp hask
    rw [answers_stored]
    cases result <;> simp [hc]
  | commit n answers =>
    simp only [StoreStep.concerns, decide_eq_false_iff_not] at hc
    obtain rfl := Option.some.inj h
    simp [hc]
  | reset => simp [StoreStep.concerns] at hc

/-- A step that is about a name takes nothing from the store but the answers under it. -/
theorem exists_perform_of_concerns {step : StoreStep} {name : String}
    {store₁ store₂ store' : AnswerStore} (hc : step.concerns name = true)
    (heq : store₁.answers name = store₂.answers name) (h : step.perform store₁ = some store') :
    ∃ store'', step.perform store₂ = some store'' ∧
      store''.answers name = store'.answers name := by
  cases step with
  | ask r start p info env =>
    simp only [StoreStep.concerns, decide_eq_true_eq] at hc
    subst hc
    obtain ⟨⟨result, store₃, s⟩, hask, rfl⟩ := Option.map_eq_some_iff.mp h
    obtain ⟨ho, rfl⟩ := ask?_eq_some_iff.mp hask
    rw [heq] at ho
    refine ⟨stored p store₂ result, ?_, ?_⟩
    · exact Option.map_eq_some_iff.mpr ⟨_, ask?_eq_some_iff.mpr ⟨ho, rfl⟩, rfl⟩
    · rw [answers_stored, answers_stored, heq]
  | commit n answers =>
    simp only [StoreStep.concerns, decide_eq_true_eq] at hc
    obtain rfl := Option.some.inj h
    exact ⟨store₂.commit n answers, rfl, by simp [hc]⟩
  | reset =>
    obtain rfl := Option.some.inj h
    exact ⟨store₂.reset, rfl, rfl⟩

/-- The answers under a name come from the steps that are about the name. -/
theorem exists_runSteps_filter (name : String) :
    ∀ (steps : List StoreStep) {store₁ store₂ store' : AnswerStore},
      store₁.answers name = store₂.answers name → runSteps steps store₁ = some store' →
      ∃ store'', runSteps (steps.filter (·.concerns name)) store₂ = some store'' ∧
        store''.answers name = store'.answers name
  | [], store₁, store₂, store', heq, h => by
    obtain rfl := Option.some.inj h
    exact ⟨store₂, rfl, heq.symm⟩
  | step :: rest, store₁, store₂, store', heq, h => by
    obtain ⟨mid₁, hs, hr⟩ := Option.bind_eq_some_iff.mp h
    cases hc : step.concerns name with
    | false =>
      have hmid := answers_of_not_concerns hc hs
      rw [List.filter_cons_of_neg (by simp [hc])]
      exact exists_runSteps_filter name rest (hmid.trans heq) hr
    | true =>
      obtain ⟨mid₂, hs₂, hmid⟩ := exists_perform_of_concerns hc heq hs
      obtain ⟨store'', hr₂, hfin⟩ := exists_runSteps_filter name rest hmid.symm hr
      rw [List.filter_cons_of_pos hc]
      exact ⟨store'', Option.bind_eq_some_iff.mpr ⟨mid₂, hs₂, hr₂⟩, hfin⟩

/-- An interview that ends in a failure, whatever fails and whenever, leaves the answers of
every template. One that succeeds leaves its result under its name and every other template as
it was. Hence what a run of interviews, commits and resets leaves under a name is what its
steps about that name leave there, on any store that starts with the same answers under it. -/
theorem answers_after_interviews :
    (∀ {σ : Type} (r : Respondent σ) (p : Prompt) (info : TemplateInfo) (env : Entries String)
      (store store' : AnswerStore) (s s' : σ) (result : Except Failure AnswerMap),
      ask? r p info env store s = some (result, store', s') →
        match result with
        | .error _ => ∀ name, store'.answers name = store.answers name
        | .ok answers => store'.answers p.name = answers ∧
            ∀ name, name ≠ p.name → store'.answers name = store.answers name) ∧
      ∀ (name : String) (steps : List StoreStep) (store₁ store₂ store' : AnswerStore),
        store₁.answers name = store₂.answers name → runSteps steps store₁ = some store' →
        ∃ store'', runSteps (steps.filter (·.concerns name)) store₂ = some store'' ∧
          store''.answers name = store'.answers name := by
  refine ⟨fun r p info env store store' s s' result h => ?_,
    fun name steps store₁ store₂ store' => exists_runSteps_filter name steps⟩
  obtain ⟨-, rfl⟩ := ask?_eq_some_iff.mp h
  cases result with
  | error f => exact fun name => answers_stored p store (.error f) name
  | ok answers =>
    refine ⟨?_, fun name hne => ?_⟩
    · rw [answers_stored]
      exact if_pos rfl
    · rw [answers_stored]
      exact if_neg (Ne.symm hne)

/-- Steps on two templates. The interview of the second one is given up after an answer. -/
def sharedSteps : List StoreStep :=
  [.ask (respondent {}).toRespondent { replies := [.answer (.text "x")] }
      ⟨"web", [{ name := "A", kind := .input }]⟩ {} [],
    .commit "api" [("B", .flag true)],
    .ask (respondent {}).toRespondent { replies := [.answer (.text "y"), .cancel] }
      ⟨"api", [{ name := "C", kind := .input }, { name := "D", kind := .input }]⟩ {} []]

/-- The answers of the second template come from the commit alone, in both runs. -/
theorem answers_after_sharedSteps :
    ∃ store' store'', runSteps sharedSteps {} = some store' ∧
      runSteps (sharedSteps.filter (·.concerns "api")) {} = some store'' ∧
      store''.answers "api" = store'.answers "api" ∧
      store'.answers "api" = [("B", .flag true)] := by
  have h : runSteps sharedSteps {} =
      some ⟨[("api", [("B", .flag true)]), ("web", [("A", .text "x"), ("RawA", .text "x")])]⟩ := by
    cbv
  obtain ⟨store'', h', heq⟩ := answers_after_interviews.2 "api" sharedSteps {} {} _ rfl h
  exact ⟨_, store'', h, h', heq, rfl⟩

end Interview

end Scaffold
