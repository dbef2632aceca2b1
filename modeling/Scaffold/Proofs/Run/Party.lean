import Scaffold.Program
import Scaffold.Proofs.Interview.Course
import Scaffold.Proofs.Repository.Checkout

/-!
# What an interview leaves alone

Whoever is asked in a run has the disk while the questions are answered. A party `Spares` a place
when none of what it does for some questions changes anything there, and then an interview that
puts no other questions changes nothing there either (`Party.Spares.outcome?`).

A terminal changes the disk for an editor alone, so it spares every place as long as no question is
answered in one (`Terminal.spares_party`).
-/

namespace Scaffold

open Disk Interview

variable {σ : Type}

/-- Whether a party changes nothing at a place when it is asked some questions. -/
structure Party.Spares (party : Party σ) (asked : Question → Prop) (place : Location) : Prop where
  start : ∀ disk, SameAt place disk (party.disk (party.start disk))
  begins : ∀ p s, SameAt place (party.disk s) (party.disk (party.respondent.begins p s).2)
  answer : ∀ q, asked q → ∀ s,
    SameAt place (party.disk s) (party.disk (party.respondent.answer q s).2)
  refuse : ∀ q, asked q → ∀ r s,
    SameAt place (party.disk s) (party.disk (party.respondent.refuse q r s).2)

/-- The questions that a template puts for some answers. -/
def Template.MayAsk (t : Template) (env : Entries String) (q : Question) : Prop :=
  ∃ xs result, Course t.manifest.info env t.manifest.prompt.questions
    (({} : AnswerStore).answers t.manifest.prompt.name) xs result ∧ q ∈ xs.map Prod.fst

theorem Template.MayAsk.mem {t : Template} {env : Entries String} {q : Question}
    (h : t.MayAsk env q) : q ∈ t.manifest.prompt.questions := by
  obtain ⟨xs, result, hcourse, hq⟩ := h
  exact hcourse.mem_of_put hq

namespace Party.Spares

variable {party : Party σ} {asked : Question → Prop} {place : Location}

theorem mono (h : party.Spares asked place) {fewer : Question → Prop}
    (hfewer : ∀ q, fewer q → asked q) : party.Spares fewer place where
  start := h.start
  begins := h.begins
  answer q hq := h.answer q (hfewer q hq)
  refuse q hq := h.refuse q (hfewer q hq)

/-- Putting a question until an answer is accepted, by induction on how many answers are left. -/
theorem askOne? (h : party.Spares asked place) {q : Question} (hq : asked q) {s s' : σ}
    {outcome : Except Failure Answer}
    (ho : party.respondent.askOne? q s = some (outcome, s')) :
    SameAt place (party.disk s) (party.disk s') := by
  induction hn : party.respondent.left s using Nat.strongRecOn generalizing s with
  | ind n ih =>
    have hanswer := h.answer q hq s
    rw [Respondent.askOne?] at ho
    split at ho
    · rename_i f s₁ ha
      rw [ha] at hanswer
      obtain ⟨-, rfl⟩ := Prod.mk.inj (Option.some.inj ho)
      exact hanswer
    · rename_i a s₁ ha
      rw [ha] at hanswer
      have h₁ := party.respondent.left_answer _ _ _ _ ha
      split at ho
      · obtain ⟨-, rfl⟩ := Prod.mk.inj (Option.some.inj ho)
        exact hanswer
      · rename_i rejection _
        have hrefuse := h.refuse q hq rejection s₁
        split at ho
        · rename_i f s₂ hr
          rw [hr] at hrefuse
          obtain ⟨-, rfl⟩ := Prod.mk.inj (Option.some.inj ho)
          exact hanswer.trans hrefuse
        · rename_i s₂ hr
          rw [hr] at hrefuse
          have h₂ := party.respondent.left_refuse _ _ _ _ _ hr
          have hagain := ih (party.respondent.left s₂) (by omega) ho rfl
          exact (hanswer.trans hrefuse).trans hagain

/-- Putting questions one after the other. -/
theorem puts (h : party.Spares asked place) {s s' : σ} {xs : List Exchange}
    (hp : Puts party.respondent.toRespondent s xs s') (hxs : ∀ x ∈ xs, asked x.1) :
    SameAt place (party.disk s) (party.disk s') := by
  induction hp with
  | nil => exact .refl place _
  | cons ho _ ih =>
    exact (h.askOne? (hxs _ List.mem_cons_self) ho).trans
      (ih fun x hx => hxs x (List.mem_cons_of_mem _ hx))

/-- An interview that ends, whether it succeeds or not. -/
theorem outcome? {env : Entries String} {t : Template} (h : party.Spares (t.MayAsk env) place)
    {s s' : σ} {result : Except Failure AnswerMap}
    (ho : Interview.outcome? party.respondent.toRespondent t.manifest.prompt t.manifest.info env
      (({} : AnswerStore).answers t.manifest.prompt.name) s = some (result, s')) :
    SameAt place (party.disk s) (party.disk s') := by
  unfold Interview.outcome? at ho
  have hbegins : SameAt place (party.disk s)
      (party.disk (announce party.respondent.toRespondent t.manifest.prompt s).2) := by
    unfold announce
    split
    · exact .refl place _
    · exact h.begins _ s
  split at ho
  · rename_i f s₁ hann
    rw [hann] at hbegins
    obtain ⟨-, rfl⟩ := Prod.mk.inj (Option.some.inj ho)
    exact hbegins
  · rename_i s₁ hann
    rw [hann] at hbegins
    obtain ⟨xs, hcourse, hputs⟩ := exists_course_of_askAll? ho
    exact hbegins.trans (h.puts hputs fun x hx =>
      ⟨xs, result, hcourse, List.mem_map_of_mem hx⟩)

/-- Asking the questions of a template in a run. -/
theorem ask {env : Entries String} {t : Template} (h : party.Spares (t.MayAsk env) place)
    (d : Depot) : SameAt place d.disk ((Run.ask party env t).perform d).2.disk := by
  have hend : Interview.ask? party.respondent.toRespondent t.manifest.prompt t.manifest.info env {}
      (party.start d.disk) = some (Interview.ask party.respondent t.manifest.prompt
        t.manifest.info env {} (party.start d.disk)) := (Option.some_get _).symm
  have hdisk : ((Run.ask party env t).perform d).2.disk =
      party.disk (Interview.ask party.respondent t.manifest.prompt t.manifest.info env {}
        (party.start d.disk)).2.2 := rfl
  rw [hdisk]
  exact (h.start d.disk).trans (h.outcome? (ask?_eq_some_iff.mp hend).1)

end Party.Spares

/-! ## Terminals -/

theorem Terminal.disk_answerOnce (env : Entries String) {q : Question} (hq : q.kind ≠ .editor)
    (keys : List Terminal.Key) (disk : Disk) :
    (Terminal.answerOnce env q keys disk).2.2 = disk := by
  unfold Terminal.answerOnce
  dsimp only
  split
  · rfl
  · rfl
  · rfl
  · rfl
  · split <;> rfl
  · split <;> rfl
  · rename_i hkind
    exact (hq hkind).elim

/-- A terminal changes nothing when no question is answered in an editor. -/
theorem Terminal.spares_party (env : Entries String) (keys : List Terminal.Key)
    (place : Location) : (Terminal.party env keys).Spares (·.kind ≠ .editor) place where
  start disk := .refl place disk
  begins _ s := .refl place s.disk
  refuse _ _ _ s := .refl place s.disk
  answer q hq s := by
    change SameAt place s.disk (Terminal.answer env q s).2.disk
    unfold Terminal.answer
    split
    · exact .refl place s.disk
    · dsimp only
      rw [Terminal.disk_answerOnce env hq]
      exact .refl place s.disk

end Scaffold
