import Scaffold.Interview.Script
import Scaffold.Proofs.Interview.Course

/-!
# Interviews in two stages

The questions of an interview may be put in two stages, under one name : the first stage leaves
its answers in the store, and the second one starts with them. `minuted` is a respondent with the
minutes of what it was asked and which answers were refused. Two states are `Alike` when the
respondent says the same in both, whatever it is told from there on.

An announcement comes once or twice then, so it must not make a difference : the respondent
`BeginsQuietly`. With such a respondent, both ways of asking come to the same answers, the same
store and the same minutes, and what the respondent would say next is the same. What the second
stage asks is in the minutes after the first one, which goes as it goes alone
(`ask?_minuted_append`).

An interview knows no more of a respondent than what it says. So it goes the same way with two
respondents that say the same in related states (`Mimics`).
-/

namespace Scaffold

variable {σ τ : Type}

/-- What a respondent is told when a question is put. -/
inductive Call where
  | ask (q : Question)
  | refuse (q : Question) (reason : Validation.Rejection)
deriving DecidableEq, Repr

/-- The question that a call is about. -/
def Call.question : Call → Question
  | ask q => q
  | refuse q _ => q

namespace Respondent

/-- What a respondent says to a call : an answer to a question, and nothing to a refusal. -/
abbrev Saying := Except Failure Answer ⊕ Except Failure Unit

/-- What a respondent says to a call. -/
def say (r : Respondent σ) : Call → σ → Saying × σ
  | .ask q, s => (.inl (r.answer q s).1, (r.answer q s).2)
  | .refuse q reason, s => (.inr (r.refuse q reason s).1, (r.refuse q reason s).2)

/-- What a respondent says to calls, one after the other. -/
def replies (r : Respondent σ) : List Call → σ → List Saying
  | [], _ => []
  | c :: calls, s => (r.say c s).1 :: r.replies calls (r.say c s).2

/-- Whether a respondent says the same in two states, whatever it is told. -/
def Alike (r : Respondent σ) (s t : σ) : Prop := ∀ calls, r.replies calls s = r.replies calls t

/-- Whether announcements succeed and make no difference to what is said after them. -/
def BeginsQuietly (r : Respondent σ) : Prop :=
  ∀ p s, ∃ s', r.begins p s = (.ok (), s') ∧ r.Alike s s'

/-- A respondent with minutes of the calls so far. -/
def minuted (r : Respondent σ) : Respondent (σ × List Call) where
  begins p s := ((r.begins p s.1).1, (r.begins p s.1).2, s.2)
  answer q s := ((r.answer q s.1).1, (r.answer q s.1).2, s.2 ++ [.ask q])
  refuse q reason s :=
    ((r.refuse q reason s.1).1, (r.refuse q reason s.1).2, s.2 ++ [.refuse q reason])

/-- Whether a respondent says the same from two states on and has the same minutes in them. -/
def AlikeSoFar (r : Respondent σ) (s t : σ × List Call) : Prop := r.Alike s.1 t.1 ∧ s.2 = t.2

theorem AlikeSoFar.refl (r : Respondent σ) (s : σ × List Call) : r.AlikeSoFar s s :=
  ⟨fun _ => rfl, rfl⟩

theorem AlikeSoFar.symm {r : Respondent σ} {s t : σ × List Call} (h : r.AlikeSoFar s t) :
    r.AlikeSoFar t s :=
  ⟨fun calls => (h.1 calls).symm, h.2.symm⟩

theorem AlikeSoFar.trans {r : Respondent σ} {s t u : σ × List Call} (hst : r.AlikeSoFar s t)
    (htu : r.AlikeSoFar t u) : r.AlikeSoFar s u :=
  ⟨fun calls => (hst.1 calls).trans (htu.1 calls), hst.2.trans htu.2⟩

/-! ## How one question is asked -/

/-- How a question is asked : an answer that is refused makes it be asked again, and anything else
that comes of a call ends it. -/
inductive Asks (r : Respondent σ) (q : Question) : σ → Except Failure Answer → σ → Prop
  | stopped {s s₁ : σ} {f : Failure} : r.answer q s = (.error f, s₁) → Asks r q s (.error f) s₁
  | accepted {s s₁ : σ} {a : Answer} : r.answer q s = (.ok a, s₁) → q.rules.check a = .ok () →
      Asks r q s (.ok a) s₁
  | unheard {s s₁ s₂ : σ} {a : Answer} {reason : Validation.Rejection} {f : Failure} :
      r.answer q s = (.ok a, s₁) → q.rules.check a = .error reason →
      r.refuse q reason s₁ = (.error f, s₂) → Asks r q s (.error f) s₂
  | again {s s₁ s₂ s₃ : σ} {a : Answer} {reason : Validation.Rejection}
      {outcome : Except Failure Answer} :
      r.answer q s = (.ok a, s₁) → q.rules.check a = .error reason →
      r.refuse q reason s₁ = (.ok (), s₂) → Asks r q s₂ outcome s₃ → Asks r q s outcome s₃

theorem asks_of_askOne? {r : Respondent σ} {q : Question} {s s' : σ}
    {outcome : Except Failure Answer} (h : r.askOne? q s = some (outcome, s')) :
    r.Asks q s outcome s' := by
  refine Respondent.askOne?.partial_correctness r q (fun s o => r.Asks q s o.1 o.2)
    (fun again ih s o ho => ?_) s _ h
  split at ho
  · rename_i f s₁ hanswer
    obtain rfl := Option.some.inj ho
    exact .stopped hanswer
  · rename_i a s₁ hanswer
    split at ho
    · rename_i hcheck
      obtain rfl := Option.some.inj ho
      exact .accepted hanswer hcheck
    · rename_i reason hcheck
      split at ho
      · rename_i f s₂ hrefuse
        obtain rfl := Option.some.inj ho
        exact .unheard hanswer hcheck hrefuse
      · rename_i s₂ hrefuse
        exact .again hanswer hcheck hrefuse (ih s₂ o ho)

theorem Asks.askOne?_eq {r : Respondent σ} {q : Question} {s s' : σ}
    {outcome : Except Failure Answer} (h : r.Asks q s outcome s') :
    r.askOne? q s = some (outcome, s') := by
  induction h with
  | stopped hanswer => rw [Respondent.askOne?, hanswer]
  | accepted hanswer hcheck => simp only [Respondent.askOne?, hanswer, hcheck]
  | unheard hanswer hcheck hrefuse =>
    rw [Respondent.askOne?]
    simp only [hanswer, hcheck, hrefuse]
  | again hanswer hcheck hrefuse _ ih =>
    rw [Respondent.askOne?]
    simp only [hanswer, hcheck, hrefuse, ih]

/-! ## Respondents that say the same -/

/-- Whether a respondent says what another one says in related states. -/
structure Mimics (r : Respondent σ) (r' : Respondent τ) (R : σ → τ → Prop) : Prop where
  answer : ∀ q {s t}, R s t → ∃ t', r'.answer q t = ((r.answer q s).1, t') ∧ R (r.answer q s).2 t'
  refuse : ∀ q reason {s t}, R s t →
    ∃ t', r'.refuse q reason t = ((r.refuse q reason s).1, t') ∧ R (r.refuse q reason s).2 t'

variable {r : Respondent σ} {r' : Respondent τ} {R : σ → τ → Prop}

theorem Mimics.exists_asks (h : Mimics r r' R) {q : Question} {s s' : σ} {t : τ}
    {outcome : Except Failure Answer} (hasks : r.Asks q s outcome s') (hR : R s t) :
    ∃ t', r'.Asks q t outcome t' ∧ R s' t' := by
  induction hasks generalizing t with
  | stopped hanswer =>
    obtain ⟨t₁, hanswer', hR₁⟩ := h.answer q hR
    rw [hanswer] at hanswer' hR₁
    exact ⟨t₁, .stopped hanswer', hR₁⟩
  | accepted hanswer hcheck =>
    obtain ⟨t₁, hanswer', hR₁⟩ := h.answer q hR
    rw [hanswer] at hanswer' hR₁
    exact ⟨t₁, .accepted hanswer' hcheck, hR₁⟩
  | @unheard s s₁ s₂ a reason f hanswer hcheck hrefuse =>
    obtain ⟨t₁, hanswer', hR₁⟩ := h.answer q hR
    rw [hanswer] at hanswer' hR₁
    obtain ⟨t₂, hrefuse', hR₂⟩ := h.refuse q reason hR₁
    rw [hrefuse] at hrefuse' hR₂
    exact ⟨t₂, .unheard hanswer' hcheck hrefuse', hR₂⟩
  | @again s s₁ s₂ s₃ a reason outcome hanswer hcheck hrefuse _ ih =>
    obtain ⟨t₁, hanswer', hR₁⟩ := h.answer q hR
    rw [hanswer] at hanswer' hR₁
    obtain ⟨t₂, hrefuse', hR₂⟩ := h.refuse q reason hR₁
    rw [hrefuse] at hrefuse' hR₂
    obtain ⟨t₃, hasks', hR₃⟩ := ih hR₂
    exact ⟨t₃, .again hanswer' hcheck hrefuse' hasks', hR₃⟩

/-- Questions that are put to a respondent that says the same come to the same. -/
theorem Mimics.exists_puts (h : Mimics r r' R) {xs : List Interview.Exchange} {s s' : σ} {t : τ}
    (hputs : Interview.Puts r s xs s') (hR : R s t) :
    ∃ t', Interview.Puts r' t xs t' ∧ R s' t' := by
  induction hputs generalizing t with
  | nil => exact ⟨t, .nil, hR⟩
  | cons hone _ ih =>
    obtain ⟨t₁, hasks, hR₁⟩ := h.exists_asks (asks_of_askOne? hone) hR
    obtain ⟨t₂, hputs', hR₂⟩ := ih hR₁
    exact ⟨t₂, .cons hasks.askOne?_eq hputs', hR₂⟩

/-- States that are alike stay so. -/
theorem mimics_alike (r : Respondent σ) : Mimics r r r.Alike where
  answer q s t h := by
    have hsaid := (List.cons.inj (h [.ask q])).1
    exact ⟨(r.answer q t).2, Prod.ext (Sum.inl.inj hsaid).symm rfl,
      fun calls => (List.cons.inj (h (.ask q :: calls))).2⟩
  refuse q reason s t h := by
    have hsaid := (List.cons.inj (h [.refuse q reason])).1
    exact ⟨(r.refuse q reason t).2, Prod.ext (Sum.inr.inj hsaid).symm rfl,
      fun calls => (List.cons.inj (h (.refuse q reason :: calls))).2⟩

/-- States that are alike so far stay so, as all calls are in the minutes. -/
theorem mimics_alikeSoFar (r : Respondent σ) : Mimics r.minuted r.minuted r.AlikeSoFar where
  answer q s t := by
    rintro ⟨halike, hsaid⟩
    obtain ⟨t', ht', halike'⟩ := (mimics_alike r).answer q halike
    exact ⟨(t', t.2 ++ [.ask q]), by simp [minuted, ht'], halike', by simp [minuted, hsaid]⟩
  refuse q reason s t := by
    rintro ⟨halike, hsaid⟩
    obtain ⟨t', ht', halike'⟩ := (mimics_alike r).refuse q reason halike
    exact ⟨(t', t.2 ++ [.refuse q reason]), by simp [minuted, ht'], halike',
      by simp [minuted, hsaid]⟩

/-- Minutes make no difference to what is said. -/
theorem mimics_minuted (r : Respondent σ) :
    Mimics r.minuted r (fun s t => s.1 = t) ∧ Mimics r r.minuted fun s t => s = t.1 := by
  refine ⟨⟨?_, ?_⟩, ⟨?_, ?_⟩⟩
  · rintro q s _ rfl
    exact ⟨_, rfl, rfl⟩
  · rintro q reason s _ rfl
    exact ⟨_, rfl, rfl⟩
  · rintro q _ t rfl
    exact ⟨_, rfl, rfl⟩
  · rintro q reason _ t rfl
    exact ⟨_, rfl, rfl⟩

/-! ## Minutes -/

/-- A question adds calls about itself to the minutes. -/
theorem Asks.exists_minutes {r : Respondent σ} {q : Question} {s s' : σ × List Call}
    {outcome : Except Failure Answer} (h : r.minuted.Asks q s outcome s') :
    ∃ more, s'.2 = s.2 ++ more ∧ ∀ c ∈ more, c.question = q := by
  have hanswer {s s₁ : σ × List Call} {a : Except Failure Answer}
      (h : r.minuted.answer q s = (a, s₁)) : s₁.2 = s.2 ++ [.ask q] :=
    (congrArg (·.2.2) h).symm
  have hrefuse {s s₁ : σ × List Call} {reason : Validation.Rejection} {u : Except Failure Unit}
      (h : r.minuted.refuse q reason s = (u, s₁)) : s₁.2 = s.2 ++ [.refuse q reason] :=
    (congrArg (·.2.2) h).symm
  induction h with
  | stopped ha => exact ⟨[.ask q], hanswer ha, by simp [Call.question]⟩
  | accepted ha _ => exact ⟨[.ask q], hanswer ha, by simp [Call.question]⟩
  | @unheard _ _ _ _ reason _ ha _ hr =>
    exact ⟨[.ask q, .refuse q reason], by simp [hrefuse hr, hanswer ha], by simp [Call.question]⟩
  | @again _ _ _ _ _ reason _ ha _ hr _ ih =>
    obtain ⟨more, hmore, habout⟩ := ih
    refine ⟨.ask q :: .refuse q reason :: more, by simp [hmore, hrefuse hr, hanswer ha], ?_⟩
    simpa [Call.question] using habout

/-- Questions that are put add calls about themselves to the minutes. -/
theorem exists_minutes_of_puts {r : Respondent σ} {xs : List Interview.Exchange}
    {s s' : σ × List Call} (h : Interview.Puts r.minuted s xs s') :
    ∃ more, s'.2 = s.2 ++ more ∧ ∀ c ∈ more, c.question ∈ xs.map Prod.fst := by
  induction h with
  | nil => exact ⟨[], by simp, by simp⟩
  | @cons s s₁ s₂ q outcome xs hone _ ih =>
    obtain ⟨first, hfirst, hq⟩ := (asks_of_askOne? hone).exists_minutes
    obtain ⟨more, hmore, hrest⟩ := ih
    refine ⟨first ++ more, by rw [hmore, hfirst, List.append_assoc], fun c hc => ?_⟩
    rcases List.mem_append.mp hc with hc | hc
    · simp [hq c hc]
    · exact List.mem_cons_of_mem _ (hrest c hc)

end Respondent

namespace Interview

open Respondent

variable {r : Respondent σ} {info : TemplateInfo} {env : Entries String}

/-! ## Two stages -/

/-- What questions come to is what the later ones come to after the earlier ones. -/
theorem askAll?_append (r : Respondent σ) (info : TemplateInfo) (env : Entries String)
    (qs₂ : List Question) : ∀ (qs₁ : List Question) (answers : AnswerMap) (s : σ),
      askAll? r info env (qs₁ ++ qs₂) answers s =
        match askAll? r info env qs₁ answers s with
        | none => none
        | some (.error f, s₁) => some (.error f, s₁)
        | some (.ok answers₁, s₁) => askAll? r info env qs₂ answers₁ s₁
  | [], answers, s => rfl
  | q :: rest, answers, s => by
    rw [List.cons_append, askAll?, askAll?]
    cases Gate.passes answers info env q.gate with
    | error f => rfl
    | ok opened =>
      cases opened with
      | false => exact askAll?_append r info env qs₂ rest answers s
      | true =>
        rcases r.askOne? q s with _ | ⟨f | raw, s₁⟩
        · rfl
        · rfl
        · exact askAll?_append r info env qs₂ rest _ s₁

theorem askAll?_append_eq_ok_iff {qs₁ qs₂ : List Question} {answers final : AnswerMap} {s s' : σ} :
    askAll? r info env (qs₁ ++ qs₂) answers s = some (.ok final, s') ↔
      ∃ answers₁ s₁, askAll? r info env qs₁ answers s = some (.ok answers₁, s₁) ∧
        askAll? r info env qs₂ answers₁ s₁ = some (.ok final, s') := by
  rw [askAll?_append]
  rcases askAll? r info env qs₁ answers s with _ | ⟨f | answers₁, s₁⟩
  · simp
  · simp
  · exact ⟨fun h => ⟨answers₁, s₁, rfl, h⟩, by rintro ⟨_, _, ⟨⟩, h⟩; exact h⟩

/-- Questions come to the same with a respondent that says the same. -/
theorem exists_askAll?_of_mimics {r' : Respondent τ} {R : σ → τ → Prop} (h : Mimics r r' R)
    {qs : List Question} {answers : AnswerMap} {s s' : σ} {t : τ}
    {result : Except Failure AnswerMap}
    (hask : askAll? r info env qs answers s = some (result, s')) (hR : R s t) :
    ∃ t', askAll? r' info env qs answers t = some (result, t') ∧ R s' t' := by
  obtain ⟨xs, hcourse, hputs⟩ := askAll?_eq_some_iff.mp hask
  obtain ⟨t', hputs', hR'⟩ := h.exists_puts hputs hR
  exact ⟨t', askAll?_eq_some_iff.mpr ⟨xs, hcourse, hputs'⟩, hR'⟩

theorem announce_minuted (r : Respondent σ) (p : Prompt) (s : σ × List Call) :
    announce r.minuted p s = ((announce r p s.1).1, (announce r p s.1).2, s.2) := by
  unfold announce
  split <;> rfl

variable (info env) in
/-- A quiet announcement makes no difference to what questions come to. -/
theorem exists_outcome?_of_quiet (hquiet : r.BeginsQuietly) (p : Prompt) (answers : AnswerMap)
    (s : σ × List Call) : ∃ s₀, r.AlikeSoFar s s₀ ∧
      outcome? r.minuted p info env answers s = askAll? r.minuted info env p.questions answers s₀ := by
  have hannounce : ∃ s₀, announce r p s.1 = (.ok (), s₀) ∧ r.Alike s.1 s₀ := by
    unfold announce
    split
    · exact ⟨s.1, rfl, fun _ => rfl⟩
    · exact hquiet p s.1
  obtain ⟨s₀, hs₀, halike⟩ := hannounce
  refine ⟨(s₀, s.2), ⟨halike, rfl⟩, ?_⟩
  rw [outcome?, announce_minuted, hs₀]

/-- What questions come to is what an interview with them comes to. -/
theorem exists_ask?_of_askAll? (hquiet : r.BeginsQuietly) (p : Prompt) (store : AnswerStore)
    {s s' t : σ × List Call} {result : Except Failure AnswerMap}
    (hall : askAll? r.minuted info env p.questions (store.answers p.name) s = some (result, s'))
    (hst : r.AlikeSoFar s t) :
    ∃ t', ask? r.minuted p info env store t = some (result, stored p store result, t') ∧
      r.AlikeSoFar s' t' := by
  obtain ⟨t₀, ht₀, heq⟩ := exists_outcome?_of_quiet info env hquiet p (store.answers p.name) t
  obtain ⟨t', hall', hst'⟩ := exists_askAll?_of_mimics (mimics_alikeSoFar r) hall (hst.trans ht₀)
  exact ⟨t', ask?_eq_some_iff.mpr ⟨heq.trans hall', rfl⟩, hst'⟩

/-- What an interview comes to is what its questions come to. -/
theorem exists_askAll?_of_ask? (hquiet : r.BeginsQuietly) {p : Prompt}
    {store store' : AnswerStore} {s s' t : σ × List Call} {result : Except Failure AnswerMap}
    (hask : ask? r.minuted p info env store s = some (result, store', s'))
    (hst : r.AlikeSoFar s t) :
    store' = stored p store result ∧
      ∃ t', askAll? r.minuted info env p.questions (store.answers p.name) t = some (result, t') ∧
        r.AlikeSoFar s' t' := by
  obtain ⟨hout, rfl⟩ := ask?_eq_some_iff.mp hask
  obtain ⟨s₀, hs₀, heq⟩ := exists_outcome?_of_quiet info env hquiet p (store.answers p.name) s
  exact ⟨rfl, exists_askAll?_of_mimics (mimics_alikeSoFar r) (heq.symm.trans hout)
    (hs₀.symm.trans hst)⟩

/-- The later questions add calls about themselves to the minutes of the earlier ones. -/
theorem exists_minutes_of_askAll? {qs : List Question} {answers : AnswerMap}
    {s s' : σ × List Call} {result : Except Failure AnswerMap}
    (hask : askAll? r.minuted info env qs answers s = some (result, s')) :
    ∃ more, s'.2 = s.2 ++ more ∧ ∀ c ∈ more, c.question ∈ qs := by
  obtain ⟨xs, hcourse, hputs⟩ := askAll?_eq_some_iff.mp hask
  obtain ⟨more, hmore, habout⟩ := exists_minutes_of_puts hputs
  exact ⟨more, hmore, fun c hc => hcourse.mem_of_put (habout c hc)⟩

theorem askAll?_minuted (r : Respondent σ) (qs : List Question) (answers : AnswerMap)
    (s : σ × List Call) : askAll? r info env qs answers s.1 =
      (askAll? r.minuted info env qs answers s).map fun o => (o.1, o.2.1) := by
  obtain ⟨hplain, hminuted⟩ := mimics_minuted r
  cases hask : askAll? r.minuted info env qs answers s with
  | some o =>
    obtain ⟨t', ht', hst'⟩ := exists_askAll?_of_mimics hplain hask rfl
    rw [ht', ← hst']
    rfl
  | none =>
    cases hask' : askAll? r info env qs answers s.1 with
    | none => rfl
    | some o =>
      obtain ⟨t', ht', -⟩ := exists_askAll?_of_mimics hminuted hask' rfl
      rw [hask] at ht'
      cases ht'

/-- Minutes make no difference to an interview. -/
theorem ask?_minuted (r : Respondent σ) (p : Prompt) (info : TemplateInfo) (env : Entries String)
    (store : AnswerStore) (s : σ × List Call) :
    ask? r p info env store s.1 =
      (ask? r.minuted p info env store s).map fun o => (o.1, o.2.1, o.2.2.1) := by
  unfold ask?
  rw [announce_minuted]
  rcases announce r p s.1 with ⟨f | u, s₀⟩
  · rfl
  · dsimp only
    rw [askAll?_minuted r p.questions _ (s₀, s.2)]
    rcases askAll? r.minuted info env p.questions _ (s₀, s.2) with _ | ⟨f | answers, s₁⟩ <;> rfl

/-- Questions that are put in two stages, under one name, come to what they come to at once : the
two ways succeed with the same answers, the same store and the same minutes, and leave the
respondent in states that are alike. However the later questions go, the minutes start with those
of the earlier ones, and go on only with calls about the later ones, if the earlier ones succeed.
Minutes make no difference to any of this. -/
theorem ask?_minuted_append (r : Respondent σ) (hquiet : r.BeginsQuietly) (name : String)
    (info : TemplateInfo) (env : Entries String) (store : AnswerStore)
    (qs₁ qs₂ : List Question) (s : σ × List Call) :
    (∀ (answers : AnswerMap) (store' : AnswerStore) (t : σ × List Call),
      (∃ s', ask? r.minuted ⟨name, qs₁ ++ qs₂⟩ info env store s = some (.ok answers, store', s') ∧
          r.AlikeSoFar s' t) ↔
        ∃ answers₁ store₁ s₁ s₂,
          ask? r.minuted ⟨name, qs₁⟩ info env store s = some (.ok answers₁, store₁, s₁) ∧
          ask? r.minuted ⟨name, qs₂⟩ info env store₁ s₁ = some (.ok answers, store', s₂) ∧
          r.AlikeSoFar s₂ t) ∧
      (∀ (result : Except Failure AnswerMap) (store' : AnswerStore) (s' : σ × List Call),
        ask? r.minuted ⟨name, qs₁ ++ qs₂⟩ info env store s = some (result, store', s') →
          ∃ result₁ store₁ s₁ more,
            ask? r.minuted ⟨name, qs₁⟩ info env store s = some (result₁, store₁, s₁) ∧
            s'.2 = s₁.2 ++ more ∧ (∀ c ∈ more, c.question ∈ qs₂) ∧
            ∀ f, result₁ = .error f → result = .error f ∧ more = []) ∧
      ∀ (p : Prompt) (store : AnswerStore) (s : σ × List Call),
        ask? r p info env store s.1 =
          (ask? r.minuted p info env store s).map fun o => (o.1, o.2.1, o.2.2.1) := by
  have hrefl : r.AlikeSoFar s s := .refl r s
  refine ⟨fun answers store' t => ⟨?_, ?_⟩, fun result store' s' hask => ?_,
    fun p => ask?_minuted r p info env⟩
  · rintro ⟨s', hask, halike⟩
    obtain ⟨rfl, t', hall, halike'⟩ := exists_askAll?_of_ask? hquiet hask hrefl
    obtain ⟨answers₁, t₁, hall₁, hall₂⟩ := askAll?_append_eq_ok_iff.mp hall
    obtain ⟨s₁, hask₁, hs₁⟩ := exists_ask?_of_askAll? hquiet ⟨name, qs₁⟩ store hall₁ hrefl
    have hall₂' : askAll? r.minuted info env qs₂ ((store.commit name answers₁).answers name) t₁ =
        some (.ok answers, t') := by
      rw [AnswerStore.answers_commit, if_pos rfl, hall₂]
    obtain ⟨s₂, hask₂, hs₂⟩ := exists_ask?_of_askAll? hquiet ⟨name, qs₂⟩ _ hall₂' hs₁
    have hstore := AnswerStore.commit_commit store name answers₁ answers
    refine ⟨answers₁, _, s₁, s₂, hask₁, ?_, hs₂.symm.trans (halike'.symm.trans halike)⟩
    dsimp only [stored] at hask₂ ⊢
    rw [← hstore]
    exact hask₂
  · rintro ⟨answers₁, store₁, s₁, s₂, hask₁, hask₂, hs₂t⟩
    obtain ⟨rfl, t₁, hall₁, hs₁⟩ := exists_askAll?_of_ask? hquiet hask₁ hrefl
    obtain ⟨rfl, t₂, hall₂, hs₂⟩ := exists_askAll?_of_ask? hquiet hask₂ hs₁
    dsimp only [stored] at hall₂
    rw [AnswerStore.answers_commit, if_pos rfl] at hall₂
    have hall := askAll?_append_eq_ok_iff.mpr ⟨answers₁, t₁, hall₁, hall₂⟩
    obtain ⟨s', hask, hs'⟩ := exists_ask?_of_askAll? hquiet ⟨name, qs₁ ++ qs₂⟩ store hall hrefl
    have hstore := AnswerStore.commit_commit store name answers₁ answers
    refine ⟨s', ?_, hs'.symm.trans (hs₂.symm.trans hs₂t)⟩
    dsimp only [stored]
    rw [hstore]
    exact hask
  · obtain ⟨-, t', hall, halike'⟩ := exists_askAll?_of_ask? hquiet hask hrefl
    rw [askAll?_append] at hall
    split at hall
    · cases hall
    · rename_i f t₁ hall₁
      obtain ⟨rfl, rfl⟩ := Prod.mk.inj (Option.some.inj hall)
      obtain ⟨s₁, hask₁, hs₁⟩ := exists_ask?_of_askAll? hquiet ⟨name, qs₁⟩ store hall₁ hrefl
      refine ⟨.error f, _, s₁, [], hask₁, ?_, by simp, ?_⟩
      · rw [List.append_nil, halike'.2, hs₁.2]
      · rintro g ⟨⟩
        exact ⟨rfl, rfl⟩
    · rename_i answers₁ t₁ hall₁
      obtain ⟨s₁, hask₁, hs₁⟩ := exists_ask?_of_askAll? hquiet ⟨name, qs₁⟩ store hall₁ hrefl
      obtain ⟨more, hmore, habout⟩ := exists_minutes_of_askAll? hall
      refine ⟨.ok answers₁, _, s₁, more, hask₁, ?_, habout, by simp⟩
      rw [halike'.2, hmore, hs₁.2]

/-! ## Scripts -/

open Script (Manner respondent)

/-- What a script says comes from the replies that are left. -/
theorem alike_script (m : Manner) {s t : Script} (h : s.replies = t.replies) :
    (respondent m).toRespondent.Alike s t := by
  intro calls
  induction calls generalizing s t with
  | nil => rfl
  | cons c calls ih =>
    have hsay : ((respondent m).say c s).1 = ((respondent m).say c t).1 ∧
        ((respondent m).say c s).2.replies = ((respondent m).say c t).2.replies := by
      obtain ⟨replies, noticed⟩ := s
      obtain ⟨_, noticed'⟩ := t
      obtain rfl : replies = _ := h
      cases c with
      | refuse q reason => exact ⟨rfl, rfl⟩
      | ask q => rcases replies with _ | ⟨_ | _ | _, rest⟩ <;> exact ⟨rfl, rfl⟩
    exact List.cons_eq_cons.mpr ⟨hsay.1, ih hsay.2⟩

/-- A script whose announcement does not fail begins quietly. -/
theorem beginsQuietly_script {m : Manner} (h : m.silent = true ∨ m.begins = .ok ()) :
    (respondent m).toRespondent.BeginsQuietly := by
  intro p s
  cases hsilent : m.silent with
  | true => exact ⟨s, by simp [respondent, hsilent], fun _ => rfl⟩
  | false =>
    have hbegins : m.begins = .ok () := h.resolve_left (by simp [hsilent])
    exact ⟨s.note (.begun p.name), by simp [respondent, hsilent, hbegins], alike_script m rfl⟩

/-- A question that must be answered. -/
def openingQuestion : Question := { name := "A", kind := .input, rules := { required := true } }

/-- A question that is only put after the answer `yes` to the one before it. -/
def gatedQuestion : Question := { name := "B", kind := .input, gate := "Answers.A == 'yes'" }

/-- The gate of the second stage sees the answer of the first one, in both ways of asking. -/
theorem ask?_minuted_append_gated :
    (respondent {}).toRespondent.BeginsQuietly ∧
      ∃ s', ask? (respondent {}).toRespondent.minuted ⟨"web", [openingQuestion] ++ [gatedQuestion]⟩
          {} [] {} ({ replies := [.answer (.text ""), .answer (.text "yes"), .answer (.text "b"),
            .cancel] }, []) =
        some (.ok [("A", .text "yes"), ("B", .text "b"), ("RawA", .text "yes"), ("RawB", .text "b")],
          ⟨[("web", [("A", .text "yes"), ("B", .text "b"), ("RawA", .text "yes"),
            ("RawB", .text "b")])]⟩, s') ∧
        s'.2 = [.ask openingQuestion, .refuse openingQuestion .missing, .ask openingQuestion,
          .ask gatedQuestion] := by
  have hquiet : (respondent {}).toRespondent.BeginsQuietly := beginsQuietly_script (Or.inr rfl)
  let r := (respondent {}).toRespondent.minuted
  let start : Script × List Call := ({ replies := [.answer (.text ""), .answer (.text "yes"),
    .answer (.text "b"), .cancel] }, [])
  let middle : Script × List Call := (⟨[.answer (.text "b"), .cancel],
      [.asked "A" "A", .refused "A" "this response is required", .asked "A" "A"]⟩,
    [.ask openingQuestion, .refuse openingQuestion .missing, .ask openingQuestion])
  let given : AnswerMap := [("A", .text "yes"), ("RawA", .text "yes")]
  have hgate : Gate.passes given {} [] gatedQuestion.gate = .ok true := by
    have hpasses : (Gate.passes given {} [] gatedQuestion.gate).toOption = some true := by
      decide +kernel
    revert hpasses
    cases Gate.passes given {} [] gatedQuestion.gate <;> simp [Except.toOption]
  have hopening : r.Asks openingQuestion start (.ok (.text "yes")) middle :=
    .again rfl rfl rfl (.accepted rfl rfl)
  have hgated : r.Asks gatedQuestion middle (.ok (.text "b")) _ := .accepted rfl rfl
  have hfirst : askAll? r {} [] [openingQuestion] [] start = some (.ok given, middle) :=
    askAll?_eq_some_iff.mpr ⟨_, .answered rfl .done, .cons hopening.askOne?_eq .nil⟩
  have hsecond : askAll? r {} [] [gatedQuestion] given middle = some (.ok _, _) :=
    askAll?_eq_some_iff.mpr ⟨_, .answered hgate .done, .cons hgated.askOne?_eq .nil⟩
  obtain ⟨s₁, hask₁, hs₁⟩ := exists_ask?_of_askAll? hquiet ⟨"web", [openingQuestion]⟩ {}
    hfirst (.refl _ start)
  obtain ⟨s₂, hask₂, hs₂⟩ := exists_ask?_of_askAll? hquiet ⟨"web", [gatedQuestion]⟩
    ⟨[("web", given)]⟩ hsecond hs₁
  obtain ⟨s', hask, hs'⟩ := ((ask?_minuted_append _ hquiet "web" {} [] {} [openingQuestion]
    [gatedQuestion] start).1 _ _ s₂).mpr ⟨given, _, s₁, s₂, hask₁, hask₂, .refl _ s₂⟩
  exact ⟨hquiet, s', hask, hs'.2.trans hs₂.2.symm⟩

end Interview

end Scaffold
