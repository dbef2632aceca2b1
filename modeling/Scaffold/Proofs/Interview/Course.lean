import Scaffold.Interview

/-!
# The course of an interview

What an interview does is said in two parts. `Course` is about the gates : which questions are
put, on which answers the next gate is decided, and what the interview comes to. `Puts` is
about the respondent : what comes of the questions put to it, one after the other. An interview
that ends is a course on what the respondent says (`askAll?_eq_some_iff`).

An interview that succeeds is the list of answers that were accepted (`Course.exists_given`).
They are recorded in the order in which they were given (`recordAll`).

The store has no part in this but for the answers that the interview starts with. `outcome?` is
what an interview comes to, `stored` what becomes of the store, and `ask?_eq_map` says that
there is nothing else.
-/

namespace Scaffold

namespace Interview

variable {σ : Type}

/-- A question that was put, with what came of it. -/
abbrev Exchange := Question × Except Failure Answer

/-- Stores accepted answers in order. -/
def recordAll (answers : AnswerMap) (given : List (Question × Answer)) : AnswerMap :=
  given.foldl recordAnswer answers

@[simp] theorem recordAll_nil (answers : AnswerMap) : recordAll answers [] = answers := rfl

@[simp] theorem recordAll_cons (answers : AnswerMap) (g : Question × Answer)
    (given : List (Question × Answer)) :
    recordAll answers (g :: given) = recordAll (recordAnswer answers g) given := rfl

/-- The course of an interview, from some answers : each question is skipped or put, as its
gate says on the answers so far, until one has no accepted answer. -/
inductive Course (info : TemplateInfo) (env : Entries String) :
    List Question → AnswerMap → List Exchange → Except Failure AnswerMap → Prop
  | done {answers : AnswerMap} : Course info env [] answers [] (.ok answers)
  | undecided {q : Question} {rest : List Question} {answers : AnswerMap} {f : Gate.Fault} :
    Gate.passes answers info env q.gate = .error f →
      Course info env (q :: rest) answers [] (.error (.gate f))
  | skipped {q : Question} {rest : List Question} {answers : AnswerMap} {xs : List Exchange}
      {result : Except Failure AnswerMap} :
    Gate.passes answers info env q.gate = .ok false → Course info env rest answers xs result →
      Course info env (q :: rest) answers xs result
  | answered {q : Question} {rest : List Question} {answers : AnswerMap} {raw : Answer}
      {xs : List Exchange} {result : Except Failure AnswerMap} :
    Gate.passes answers info env q.gate = .ok true →
      Course info env rest (recordAnswer answers (q, raw)) xs result →
      Course info env (q :: rest) answers ((q, .ok raw) :: xs) result
  | stopped {q : Question} {rest : List Question} {answers : AnswerMap} {f : Failure} :
    Gate.passes answers info env q.gate = .ok true →
      Course info env (q :: rest) answers [(q, .error f)] (.error f)

/-- What comes of questions that are put to a respondent one after the other. -/
inductive Puts (r : Respondent σ) : σ → List Exchange → σ → Prop
  | nil {s : σ} : Puts r s [] s
  | cons {s s₁ s₂ : σ} {q : Question} {outcome : Except Failure Answer} {xs : List Exchange} :
    r.askOne? q s = some (outcome, s₁) → Puts r s₁ xs s₂ → Puts r s ((q, outcome) :: xs) s₂

theorem exists_course_of_askAll? {r : Respondent σ} {info : TemplateInfo} {env : Entries String} :
    ∀ {qs : List Question} {answers : AnswerMap} {s : σ} {result : Except Failure AnswerMap}
      {s' : σ}, askAll? r info env qs answers s = some (result, s') →
      ∃ xs, Course info env qs answers xs result ∧ Puts r s xs s'
  | [], answers, s, result, s', h => by
    simp only [askAll?, Option.some.injEq, Prod.mk.injEq] at h
    obtain ⟨rfl, rfl⟩ := h
    exact ⟨[], .done, .nil⟩
  | q :: rest, answers, s, result, s', h => by
    rw [askAll?] at h
    split at h
    · rename_i f hg
      simp only [Option.some.injEq, Prod.mk.injEq] at h
      obtain ⟨rfl, rfl⟩ := h
      exact ⟨[], .undecided hg, .nil⟩
    · rename_i hg
      obtain ⟨xs, hc, hp⟩ := exists_course_of_askAll? h
      exact ⟨xs, .skipped hg hc, hp⟩
    · rename_i hg
      split at h
      · simp at h
      · rename_i f s₁ ho
        simp only [Option.some.injEq, Prod.mk.injEq] at h
        obtain ⟨rfl, rfl⟩ := h
        exact ⟨[(q, .error f)], .stopped hg, .cons ho .nil⟩
      · rename_i raw s₁ ho
        obtain ⟨xs, hc, hp⟩ := exists_course_of_askAll? h
        exact ⟨(q, .ok raw) :: xs, .answered hg hc, .cons ho hp⟩

/-- A course on what the respondent says is what the interview does. -/
theorem Course.askAll?_eq {r : Respondent σ} {info : TemplateInfo} {env : Entries String}
    {qs : List Question} {answers : AnswerMap} {xs : List Exchange}
    {result : Except Failure AnswerMap} (hc : Course info env qs answers xs result) {s s' : σ}
    (hp : Puts r s xs s') : askAll? r info env qs answers s = some (result, s') := by
  induction hc generalizing s with
  | done =>
    cases hp
    rfl
  | undecided hg =>
    cases hp
    simp [askAll?, hg]
  | skipped hg _ ih => simp [askAll?, hg, ih hp]
  | answered hg _ ih =>
    cases hp with
    | cons ho hp => simpa [askAll?, hg, ho] using ih hp
  | stopped hg =>
    cases hp with
    | cons ho hp =>
      cases hp
      simp [askAll?, hg, ho]

/-- The questions of an interview that ends are a course on what the respondent says. -/
theorem askAll?_eq_some_iff {r : Respondent σ} {info : TemplateInfo} {env : Entries String}
    {qs : List Question} {answers : AnswerMap} {s s' : σ} {result : Except Failure AnswerMap} :
    askAll? r info env qs answers s = some (result, s') ↔
      ∃ xs, Course info env qs answers xs result ∧ Puts r s xs s' :=
  ⟨exists_course_of_askAll?, fun ⟨_, hc, hp⟩ => hc.askAll?_eq hp⟩

/-- Only the questions of an interview are put. -/
theorem Course.mem_of_put {info : TemplateInfo} {env : Entries String} {qs : List Question}
    {answers : AnswerMap} {xs : List Exchange} {result : Except Failure AnswerMap}
    (hc : Course info env qs answers xs result) {q : Question} (hq : q ∈ xs.map Prod.fst) :
    q ∈ qs := by
  induction hc with
  | done | undecided _ => cases hq
  | skipped _ _ ih => exact List.mem_cons_of_mem _ (ih hq)
  | answered _ _ ih =>
    rcases List.mem_cons.mp hq with rfl | hq
    · exact List.mem_cons_self
    · exact List.mem_cons_of_mem _ (ih hq)
  | stopped _ =>
    obtain rfl := List.mem_singleton.mp hq
    exact List.mem_cons_self

/-! ## Interviews that succeed -/

/-- The exchange in which an answer was accepted. -/
def accepted (g : Question × Answer) : Exchange := (g.1, .ok g.2)

/-- In a course that succeeds every question that was put has an accepted answer, the
questions are put in order, and the answers are recorded as they were given. -/
theorem Course.exists_given {info : TemplateInfo} {env : Entries String} {qs : List Question}
    {answers final : AnswerMap} {xs : List Exchange}
    (hc : Course info env qs answers xs (.ok final)) :
    ∃ given : List (Question × Answer), xs = given.map accepted ∧
      final = recordAll answers given ∧ (given.map Prod.fst).Sublist qs := by
  generalize hr : (Except.ok final : Except Failure AnswerMap) = result at hc
  induction hc with
  | done =>
    cases hr
    exact ⟨[], rfl, rfl, .slnil⟩
  | undecided => cases hr
  | skipped _ _ ih =>
    obtain ⟨given, hx, hf, hs⟩ := ih hr
    exact ⟨given, hx, hf, hs.cons _⟩
  | @answered q rest answers raw xs result _ _ ih =>
    obtain ⟨given, hx, hf, hs⟩ := ih hr
    exact ⟨(q, raw) :: given, by simp [hx, accepted], by simp [hf],
      by simpa using hs.cons_cons q⟩
  | stopped => cases hr

/-! ## The part of the store -/

/-- What an interview that starts with some answers comes to, if it ends. -/
def outcome? (r : Respondent σ) (p : Prompt) (info : TemplateInfo) (env : Entries String)
    (answers : AnswerMap) (s : σ) : Option (Except Failure AnswerMap × σ) :=
  match announce r p s with
  | (.error f, s) => some (.error f, s)
  | (.ok _, s) => askAll? r info env p.questions answers s

/-- The store after an interview. -/
def stored (p : Prompt) (store : AnswerStore) : Except Failure AnswerMap → AnswerStore
  | .ok answers => store.commit p.name answers
  | .error _ => store

/-- The store gives an interview the answers under its name and takes back the result. -/
theorem ask?_eq_map (r : Respondent σ) (p : Prompt) (info : TemplateInfo) (env : Entries String)
    (store : AnswerStore) (s : σ) :
    ask? r p info env store s =
      (outcome? r p info env (store.answers p.name) s).map
        fun o => (o.1, stored p store o.1, o.2) := by
  unfold ask? outcome?
  rcases announce r p s with ⟨f | u, s₁⟩
  · rfl
  · dsimp only
    rcases askAll? r info env p.questions (store.answers p.name) s₁ with
      _ | ⟨f | answers, s₂⟩ <;> rfl

theorem ask?_eq_some_iff {r : Respondent σ} {p : Prompt} {info : TemplateInfo}
    {env : Entries String} {store store' : AnswerStore} {s s' : σ}
    {result : Except Failure AnswerMap} :
    ask? r p info env store s = some (result, store', s') ↔
      outcome? r p info env (store.answers p.name) s = some (result, s') ∧
        store' = stored p store result := by
  rw [ask?_eq_map, Option.map_eq_some_iff]
  constructor
  · rintro ⟨⟨result₁, s₁⟩, ho, h⟩
    simp only [Prod.mk.injEq] at h
    obtain ⟨rfl, rfl, rfl⟩ := h
    exact ⟨ho, rfl⟩
  · rintro ⟨ho, rfl⟩
    exact ⟨(result, s'), ho, rfl⟩

end Interview

end Scaffold
