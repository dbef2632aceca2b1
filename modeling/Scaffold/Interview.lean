import Scaffold.Failure

/-!
# Interviews

The questions of a template are put one after the other to a `Respondent`. A question whose
gate is shut is left out, and a gate sees the answers to the questions before it. An answer
that a question's rules refuse is refused aloud, and the question is put again.

The store gets the answers when the interview is over, so one that fails changes nothing.

A respondent may give answers that are refused for ever, so `askOne?`, `askAll?` and `ask?` say
what comes of an interview that ends. A `FiniteRespondent` gives only so many answers: with one,
every interview ends (`isSome_ask?`), and `ask` says how.
-/

namespace Scaffold

/-- Whoever answers questions, with a state. -/
structure Respondent (σ : Type) where
  begins : Prompt → σ → Except Failure Unit × σ
  answer : Question → σ → Except Failure Answer × σ
  refuse : Question → Validation.Rejection → σ → Except Failure Unit × σ

/-- A respondent that gives finitely many answers: `left` bounds how many more there are. -/
structure FiniteRespondent (σ : Type) extends Respondent σ where
  left : σ → Nat
  left_answer : ∀ q s a s', answer q s = (.ok a, s') → left s' < left s
  left_refuse : ∀ q r s u s', refuse q r s = (.ok u, s') → left s' ≤ left s

variable {σ : Type}

/-- Puts a question until an answer is accepted. -/
def Respondent.askOne? (r : Respondent σ) (q : Question) (s : σ) :
    Option (Except Failure Answer × σ) :=
  match r.answer q s with
  | (.error f, s) => some (.error f, s)
  | (.ok a, s) =>
    match q.rules.check a with
    | .ok _ => some (.ok a, s)
    | .error rejection =>
      match r.refuse q rejection s with
      | (.error f, s) => some (.error f, s)
      | (.ok _, s) => r |>.askOne? q s
partial_fixpoint

namespace Interview

/-- Stores an accepted answer under the name of its question. -/
def recordAnswer (answers : AnswerMap) (g : Question × Answer) : AnswerMap :=
  AnswerMap.record g.1.name g.2 (g.1.transform.apply g.2) answers

/-- Puts questions in order, starting with some answers. -/
def askAll? (r : Respondent σ) (info : TemplateInfo) (env : Entries String) :
    List Question → AnswerMap → σ → Option (Except Failure AnswerMap × σ)
  | [], answers, s => some (.ok answers, s)
  | q :: rest, answers, s =>
    match Gate.passes answers info env q.gate with
    | .error f => some (.error (.gate f), s)
    | .ok false => askAll? r info env rest answers s
    | .ok true =>
      match r.askOne? q s with
      | none => none
      | some (.error f, s) => some (.error f, s)
      | some (.ok raw, s) => askAll? r info env rest (recordAnswer answers (q, raw)) s

/-- Announces the questions, if there are any. -/
def announce (r : Respondent σ) (p : Prompt) (s : σ) : Except Failure Unit × σ :=
  if p.questions.isEmpty then (.ok (), s) else r.begins p s

/-- Asks the questions of a template. They start with the answers that the store holds under
their name, and the store gets them back when all are answered. -/
def ask? (r : Respondent σ) (p : Prompt) (info : TemplateInfo) (env : Entries String)
    (store : AnswerStore) (s : σ) : Option (Except Failure AnswerMap × AnswerStore × σ) :=
  match announce r p s with
  | (.error f, s) => some (.error f, store, s)
  | (.ok _, s) =>
    match askAll? r info env p.questions (store.answers p.name) s with
    | none => none
    | some (.error f, s) => some (.error f, store, s)
    | some (.ok answers, s) => some (.ok answers, store.commit p.name answers, s)

/-! ## Interviews that end -/

theorem isSome_askOne? (r : FiniteRespondent σ) (q : Question) (s : σ) :
    (r.askOne? q s).isSome := by
  induction hn : r.left s using Nat.strongRecOn generalizing s with
  | ind n ih =>
    rw [Respondent.askOne?]
    split
    · rfl
    · rename_i a s₁ ha
      split
      · rfl
      · split
        · rfl
        · rename_i s₂ hr
          have h₁ := r.left_answer _ _ _ _ ha
          have h₂ := r.left_refuse _ _ _ _ _ hr
          exact ih (r.left s₂) (by omega) s₂ rfl

theorem isSome_askAll? (r : FiniteRespondent σ) (info : TemplateInfo) (env : Entries String) :
    ∀ (qs : List Question) (answers : AnswerMap) (s : σ),
      (askAll? r.toRespondent info env qs answers s).isSome
  | [], _, _ => rfl
  | q :: rest, answers, s => by
    rw [askAll?]
    split
    · rfl
    · exact isSome_askAll? r info env rest answers s
    · obtain ⟨outcome, ho⟩ := Option.isSome_iff_exists.mp (isSome_askOne? r q s)
      rw [ho]
      rcases outcome with ⟨_ | raw, s'⟩
      · rfl
      · exact isSome_askAll? r info env rest _ s'

/-- An interview with a finite respondent ends. -/
theorem isSome_ask? (r : FiniteRespondent σ) (p : Prompt) (info : TemplateInfo)
    (env : Entries String) (store : AnswerStore) (s : σ) :
    (ask? r.toRespondent p info env store s).isSome := by
  rw [ask?]
  split
  · rfl
  · rename_i s' _
    obtain ⟨outcome, ho⟩ := Option.isSome_iff_exists.mp
      (isSome_askAll? r info env p.questions (store.answers p.name) s')
    rw [ho]
    rcases outcome with ⟨_ | answers, s''⟩ <;> rfl

/-- Asks the questions of a template of a finite respondent. -/
def ask (r : FiniteRespondent σ) (p : Prompt) (info : TemplateInfo) (env : Entries String)
    (store : AnswerStore) (s : σ) : Except Failure AnswerMap × AnswerStore × σ :=
  (ask? r.toRespondent p info env store s).get (isSome_ask? r p info env store s)

end Interview

end Scaffold
