import Scaffold.Interview.Script
import Scaffold.Proofs.Interview.Course

/-!
# Transcripts of scripted interviews

The transcript of an interview with a script is a list of turns. A `Turn` is how one question
was put : the answers that were refused, each with the reason, and the reply that ended the
turn. What is noticed of a turn is `Turn.events`, what it takes from the script `Turn.replies`.

`Transcript` says which turns belong to a script : the gates decide which questions have a turn
(`Course`), the turns take their replies from the front of the script one after the other
(`Played`), an answer is refused just when the rules of its question refuse it, and the first
one that they accept ends the turn. Nothing but that comes of an interview with a script, and
it always ends (`ask?_script`).
-/

namespace Scaffold

namespace Interview

open Script (Manner respondent)

/-- How a question was put. A turn has no last reply when the script was used up. -/
structure Turn where
  question : Question
  refused : List (Answer × Validation.Rejection)
  last : Option Reply
deriving DecidableEq, Repr

namespace Turn

/-- What is noticed when a question is put. -/
def asking (q : Question) : Event := .asked q.name q.message

/-- What is noticed of a turn : the question, put again after each refusal. -/
def events (t : Turn) : List Event :=
  t.refused.flatMap (fun e => [asking t.question, .refused t.question.name e.2.message]) ++
    [asking t.question]

/-- The replies that a turn takes. -/
def replies (t : Turn) : List Reply := t.refused.map (fun e => .answer e.1) ++ t.last.toList

/-- What a turn comes to. -/
def outcome (t : Turn) : Except Failure Answer :=
  match t.last with
  | some (.answer a) => .ok a
  | some (.fail words) => .error (.prompt (.words words))
  | _ => .error .cancelled

/-- The question of a turn with what it came to. -/
def exchange (t : Turn) : Exchange := (t.question, t.outcome)

/-- The answers of a turn are refused for the reasons given, but for the last one, which is
accepted. -/
structure Sound (t : Turn) : Prop where
  refused : ∀ e ∈ t.refused, t.question.rules.check e.1 = .error e.2
  accepted : ∀ a, t.last = some (.answer a) → t.question.rules.check a = .ok ()

/-- A turn takes its replies from the front of a script. One without a last reply leaves
nothing. -/
structure Takes (t : Turn) (replies left : List Reply) : Prop where
  sound : t.Sound
  replies_eq : replies = t.replies ++ left
  left_eq : t.last = none → left = []

end Turn

/-- The turns take their replies from the front of a script, one after the other. -/
inductive Played : List Reply → List Turn → List Reply → Prop
  | nil {left : List Reply} : Played left [] left
  | cons {t : Turn} {turns : List Turn} {replies mid left : List Reply} : t.Takes replies mid →
      Played mid turns left → Played replies (t :: turns) left

/-! ## One question -/

/-- Every script has a turn for every question. -/
theorem exists_takes (q : Question) :
    ∀ replies : List Reply, ∃ (t : Turn) (left : List Reply), t.question = q ∧
      t.Takes replies left
  | [] => ⟨⟨q, [], none⟩, [], rfl, ⟨nofun, nofun⟩, rfl, fun _ => rfl⟩
  | .cancel :: rest => ⟨⟨q, [], some .cancel⟩, rest, rfl, ⟨nofun, nofun⟩, rfl, nofun⟩
  | .fail words :: rest => ⟨⟨q, [], some (.fail words)⟩, rest, rfl, ⟨nofun, nofun⟩, rfl, nofun⟩
  | .answer a :: rest => by
    cases hc : q.rules.check a with
    | ok u =>
      refine ⟨⟨q, [], some (.answer a)⟩, rest, rfl, ⟨nofun, ?_⟩, rfl, nofun⟩
      rintro _ ⟨⟩
      exact hc
    | error rejection =>
      obtain ⟨t, left, rfl, ht, heq, hleft⟩ := exists_takes q rest
      refine ⟨{ t with refused := (a, rejection) :: t.refused }, left, rfl, ⟨?_, ht.accepted⟩,
        congrArg _ heq, hleft⟩
      rintro e (_ | ⟨_, he⟩)
      · exact hc
      · exact ht.refused e he

/-- A question is put until its turn is over. -/
theorem askOne?_of_takes (m : Manner) {t : Turn} {replies left : List Reply}
    (ht : t.Takes replies left) (noticed : List Event) :
    (respondent m).askOne? t.question ⟨replies, noticed⟩ =
      some (t.outcome, ⟨left, t.events.reverse ++ noticed⟩) := by
  obtain ⟨ht, rfl, hleft⟩ := ht
  obtain ⟨q, refused, last⟩ := t
  induction refused generalizing noticed with
  | nil =>
    rw [Respondent.askOne?]
    rcases last with _ | a | _ | words
    · obtain rfl := hleft rfl
      rfl
    · have hc : q.rules.check a = .ok () := ht.accepted a rfl
      simp [Turn.replies, Turn.outcome, Turn.events, Turn.asking, respondent, Script.note,
        Script.reply, hc]
    · rfl
    · rfl
  | cons e refused ih =>
    have hc : q.rules.check e.1 = .error e.2 := ht.refused e (by simp)
    have hrest := ih (.refused q.name e.2.message :: Turn.asking q :: noticed)
      ⟨fun e he => ht.refused e (by simp [he]), ht.accepted⟩ hleft
    rw [Respondent.askOne?]
    simpa [Turn.replies, Turn.outcome, Turn.events, Turn.asking, respondent, Script.note,
      Script.reply, hc] using hrest

/-! ## All questions -/

/-- What comes of questions put to a script is what their turns come to. -/
theorem Played.puts (m : Manner) {replies left : List Reply} {turns : List Turn}
    (h : Played replies turns left) (noticed : List Event) :
    Puts (respondent m).toRespondent ⟨replies, noticed⟩ (turns.map Turn.exchange)
      ⟨left, (turns.flatMap Turn.events).reverse ++ noticed⟩ := by
  induction h generalizing noticed with
  | nil => exact .nil
  | cons ht _ ih =>
    refine .cons (askOne?_of_takes m ht noticed) ?_
    simpa using ih _

/-- Questions that were put to a script have turns. -/
theorem exists_played_of_puts {m : Manner} {s s' : Script} {xs : List Exchange}
    (h : Puts (respondent m).toRespondent s xs s') :
    ∃ turns, xs = turns.map Turn.exchange ∧ Played s.replies turns s'.replies ∧
      s'.noticed = (turns.flatMap Turn.events).reverse ++ s.noticed := by
  induction h with
  | nil => exact ⟨[], rfl, .nil, rfl⟩
  | @cons s s₁ s₂ q outcome xs ho _ ih =>
    obtain ⟨turns, rfl, hp, hn⟩ := ih
    obtain ⟨t, left, rfl, ht⟩ := exists_takes q s.replies
    have hask := askOne?_of_takes m ht s.noticed
    rw [ho, Option.some.injEq, Prod.mk.injEq] at hask
    obtain ⟨rfl, rfl⟩ := hask
    exact ⟨t :: turns, rfl, .cons ht hp, by simp [hn]⟩

/-- The replies of a script are those of the turns and those that are left. -/
theorem Played.replies_eq {replies left : List Reply} {turns : List Turn}
    (h : Played replies turns left) : replies = turns.flatMap Turn.replies ++ left := by
  induction h with
  | nil => rfl
  | cons ht _ ih => rw [ht.replies_eq, ih, List.flatMap_cons, List.append_assoc]

/-! ## Interviews -/

/-- What is noticed before the first question. -/
def opening (m : Manner) (p : Prompt) : List Event :=
  if p.questions.isEmpty || m.silent then [] else [.begun p.name]

/-- What comes of the announcement. -/
def opened (m : Manner) (p : Prompt) : Except Failure Unit :=
  if p.questions.isEmpty || m.silent then .ok () else m.begins

/-- The turns of an interview with a script, what it comes to and the replies that are left.
Without an announcement nothing is asked. After it, the gates decide on the questions and each
turn on its replies. -/
inductive Transcript (m : Manner) (p : Prompt) (info : TemplateInfo) (env : Entries String)
    (answers : AnswerMap) (replies : List Reply) :
    List Turn → Except Failure AnswerMap → List Reply → Prop
  | unopened {f : Failure} : opened m p = .error f →
      Transcript m p info env answers replies [] (.error f) replies
  | opened {turns : List Turn} {result : Except Failure AnswerMap} {left : List Reply} :
    opened m p = .ok () → Course info env p.questions answers (turns.map Turn.exchange) result →
      Played replies turns left → Transcript m p info env answers replies turns result left

theorem announce_script (m : Manner) (p : Prompt) (s : Script) :
    announce (respondent m).toRespondent p s =
      (opened m p, ⟨s.replies, (opening m p).reverse ++ s.noticed⟩) := by
  unfold announce opened opening
  cases hq : p.questions.isEmpty <;> cases hs : m.silent <;> simp [respondent, Script.note, hs]

/-- What comes of an interview with a script is what a transcript says. -/
theorem outcome?_script_eq_some_iff {m : Manner} {p : Prompt} {info : TemplateInfo}
    {env : Entries String} {answers : AnswerMap} {replies : List Reply} {s' : Script}
    {result : Except Failure AnswerMap} :
    outcome? (respondent m).toRespondent p info env answers { replies } = some (result, s') ↔
      ∃ turns, Transcript m p info env answers replies turns result s'.replies ∧
        s'.events = opening m p ++ turns.flatMap Turn.events := by
  rw [outcome?, announce_script]
  obtain ⟨left, noticed⟩ := s'
  cases ho : opened m p with
  | error f =>
    constructor
    · intro h
      simp only [Option.some.injEq, Prod.mk.injEq, Script.mk.injEq] at h
      obtain ⟨rfl, rfl, rfl⟩ := h
      exact ⟨[], .unopened ho, by simp [Script.events]⟩
    · rintro ⟨turns, ht, hn⟩
      cases ht with
      | unopened ho' =>
        obtain rfl := Except.error.inj (ho.symm.trans ho')
        simpa [Script.events, List.reverse_eq_iff] using hn.symm
      | opened ho' => cases ho.symm.trans ho'
  | ok u =>
    rw [askAll?_eq_some_iff]
    constructor
    · rintro ⟨xs, hc, hp⟩
      obtain ⟨turns, rfl, hp, hn⟩ := exists_played_of_puts hp
      exact ⟨turns, .opened ho hc hp, by simp_all [Script.events]⟩
    · rintro ⟨turns, ht, hn⟩
      cases ht with
      | unopened ho' => cases ho.symm.trans ho'
      | opened _ hc hp =>
        have hputs := hp.puts m (opening m p).reverse
        rw [← List.reverse_append, ← List.reverse_eq_iff.mp hn] at hputs
        exact ⟨_, hc, by simpa using hputs⟩

/-! ## Interviews that succeed -/

/-- Whether an event is a question that is put. -/
def Event.isAsking : Event → Bool
  | .asked _ _ => true
  | _ => false

/-- Asking ends with a reply, and every reply that is refused is asked for once more. -/
theorem Turn.countP_events {t : Turn} {raw : Answer} (h : t.outcome = .ok raw) :
    t.events.countP Event.isAsking = t.replies.length := by
  obtain ⟨q, refused, last⟩ := t
  rcases last with _ | a | _ | words
  · simp [Turn.outcome] at h
  · induction refused with
    | nil => rfl
    | cons e refused ih =>
      have hev : (Turn.mk q (e :: refused) (some (.answer a))).events =
          Turn.asking q :: .refused q.name e.2.message ::
            (Turn.mk q refused (some (.answer a))).events := rfl
      rw [hev, List.countP_cons_of_pos rfl, List.countP_cons_of_neg (by simp [Event.isAsking]),
        ih h]
      rfl
  · simp [Turn.outcome] at h
  · simp [Turn.outcome] at h

theorem countP_flatMap_events {turns : List Turn} {given : List (Question × Answer)}
    (h : turns.map Turn.exchange = given.map accepted) :
    (turns.flatMap Turn.events).countP Event.isAsking = (turns.flatMap Turn.replies).length := by
  induction turns generalizing given with
  | nil => rfl
  | cons t turns ih =>
    cases given with
    | nil => simp at h
    | cons g given =>
      simp only [List.map_cons, List.cons.injEq, Turn.exchange, accepted, Prod.mk.injEq] at h
      rw [List.flatMap_cons, List.flatMap_cons, List.countP_append, List.length_append,
        Turn.countP_events h.1.2, ih h.2]

/-- An accepted answer has two names, its own and the raw one. -/
theorem has_recordAnswer (name : String) (answers : AnswerMap) (g : Question × Answer) :
    Entries.has name (recordAnswer answers g) = true ↔ Entries.has name answers = true ∨
      name = g.1.name ∨ name = AnswerMap.rawName g.1.name := by
  rw [Entries.has, recordAnswer, AnswerMap.get?_record]
  split
  · rename_i h₁
    exact iff_of_true rfl (Or.inr (Or.inl h₁.symm))
  · rename_i h₁
    split
    · rename_i h₂
      exact iff_of_true rfl (Or.inr (Or.inr h₂.symm))
    · rename_i h₂
      exact ⟨Or.inl, fun h => h.elim id fun h => (h.elim (h₁ ·.symm) (h₂ ·.symm)).elim⟩

/-- Recorded answers add their own names and their raw names, and no others. -/
theorem has_recordAll (name : String) :
    ∀ (given : List (Question × Answer)) (answers : AnswerMap),
      Entries.has name (recordAll answers given) = true ↔ Entries.has name answers = true ∨
        ∃ g ∈ given, name = g.1.name ∨ name = AnswerMap.rawName g.1.name
  | [], answers => by simp
  | g :: given, answers => by
    rw [recordAll_cons, has_recordAll name given, has_recordAnswer]
    simp [or_assoc]

theorem isAsking_opening (m : Manner) (p : Prompt) :
    (opening m p).countP Event.isAsking = 0 := by
  unfold opening
  split <;> simp [Event.isAsking]

/-- An interview with a script ends, and just as its transcript says : it is announced if there
are questions, before anything else, the questions whose gates are open are put in order, and
each until a reply is accepted. When it succeeds its result is what it started with and the
accepted answers, so it has no other names than theirs, and as many replies are used up as
questions were put. -/
theorem ask?_script (m : Manner) (p : Prompt) (info : TemplateInfo) (env : Entries String)
    (store : AnswerStore) (replies : List Reply) :
    (ask? (respondent m).toRespondent p info env store { replies }).isSome ∧
      (∀ (result : Except Failure AnswerMap) (store' : AnswerStore) (s' : Script),
        ask? (respondent m).toRespondent p info env store { replies } =
            some (result, store', s') ↔
          store' = stored p store result ∧ ∃ turns,
            Transcript m p info env (store.answers p.name) replies turns result s'.replies ∧
              s'.events = opening m p ++ turns.flatMap Turn.events) ∧
      ∀ (turns : List Turn) (answers : AnswerMap) (left : List Reply),
        Transcript m p info env (store.answers p.name) replies turns (.ok answers) left →
          ∃ given : List (Question × Answer), turns.map Turn.exchange = given.map accepted ∧
            (given.map Prod.fst).Sublist p.questions ∧
            answers = recordAll (store.answers p.name) given ∧
            (∀ name, Entries.has name answers = true ↔
              Entries.has name (store.answers p.name) = true ∨
                ∃ g ∈ given, name = g.1.name ∨ name = AnswerMap.rawName g.1.name) ∧
            replies.length = left.length +
              (opening m p ++ turns.flatMap Turn.events).countP Event.isAsking := by
  refine ⟨isSome_ask? (respondent m) p info env store _, fun result store' s' => ?_,
    fun turns answers left ht => ?_⟩
  · rw [ask?_eq_some_iff, outcome?_script_eq_some_iff, and_comm]
  · cases ht with
    | opened _ hc hp =>
      obtain ⟨given, hx, rfl, hs⟩ := hc.exists_given
      refine ⟨given, hx, hs, rfl, fun name => has_recordAll name given _, ?_⟩
      rw [List.countP_append, isAsking_opening, countP_flatMap_events hx, hp.replies_eq,
        List.length_append]
      omega

/-- A question that must be answered. -/
def requiredQuestion : Question := { name := "A", kind := .input, rules := { required := true } }

/-- A turn in which the second reply is accepted. -/
def requiredTurn : Turn := ⟨requiredQuestion, [(.text "", .missing)], some (.answer (.text "x"))⟩

/-- The interview with this turn asks twice and leaves the reply after it. -/
theorem ask?_script_of_requiredTurn :
    ∃ given : List (Question × Answer),
      Transcript {} ⟨"web", [requiredQuestion]⟩ {} [] [] (requiredTurn.replies ++ [.cancel])
        [requiredTurn] (.ok (recordAnswer [] (requiredQuestion, .text "x"))) [.cancel] ∧
      [requiredTurn].map Turn.exchange = given.map accepted ∧
      (requiredTurn.replies ++ [Reply.cancel]).length =
        1 + (Event.begun "web" :: requiredTurn.events).countP Event.isAsking := by
  have hsound : requiredTurn.Sound := by
    refine ⟨fun e he => ?_, fun a ha => ?_⟩
    · obtain rfl := List.mem_singleton.mp he
      rfl
    · cases ha
      rfl
  have ht : Transcript {} ⟨"web", [requiredQuestion]⟩ {} [] [] (requiredTurn.replies ++ [.cancel])
      [requiredTurn] (.ok (recordAnswer [] (requiredQuestion, .text "x"))) [.cancel] :=
    .opened rfl (.answered rfl .done) (.cons ⟨hsound, rfl, by simp [requiredTurn]⟩ .nil)
  obtain ⟨given, hgiven, -, -, -, hlen⟩ :=
    (ask?_script {} ⟨"web", [requiredQuestion]⟩ {} [] {} _).2.2 [requiredTurn] _ _ ht
  exact ⟨given, ht, hgiven, hlen⟩

end Interview

end Scaffold
