import Scaffold.Proofs.Gate.Spelling
import Scaffold.Proofs.Gate.Words
import Scaffold.Proofs.Stencil.Lookup

/-!
# Answers that are not there

A question that was skipped leaves no answer. A gate may look it up all the same, and look further
things up in it : all this comes to nothing, at whatever depth. Nothing is no flag, its negation is
`true`, and it differs from every literal (`evaluate_absent`).
-/

namespace Scaffold

open Stencil

namespace Stencil

/-! ## Tokens without faults -/

theorem upToFault_eq_self {ts : List Token} (h : ∀ t ∈ ts, t.isFault = false) :
    upToFault ts = ts := by
  induction ts with
  | nil => rfl
  | cons t ts ih =>
    obtain ⟨ht, hts⟩ := List.forall_mem_cons.mp h
    rw [upToFault, ht, if_neg Bool.false_ne_true, ih hts]

theorem Literal.isFault_of_mem {l : Literal} {t : Token} (h : t ∈ l.tokens) :
    t.isFault = false := by
  have hconstant := l.isConstant
  rw [tokens] at h
  rcases List.mem_append.mp h with h | h
  · split_ifs at h
    · rw [List.mem_singleton.mp h]
      rfl
    · cases h
  · rw [← List.mem_singleton.mp h] at hconstant
    cases t <;> first
      | rfl
      | cases hconstant

theorem Lookup.isFault_of_mem {l : Lookup} {t : Token} (h : t ∈ l.tokens) :
    t.isFault = false := by
  rw [tokens, List.mem_cons, List.mem_cons, List.mem_cons, List.mem_flatMap] at h
  obtain rfl | rfl | rfl | ⟨step, -, hstep⟩ := h
  · rfl
  · rfl
  · rfl
  · cases step with
    | attr name =>
      simp only [Step.tokens, List.mem_cons, List.not_mem_nil, or_false] at hstep
      rcases hstep with rfl | rfl <;> rfl
    | item key =>
      simp only [Step.tokens, List.mem_cons, List.mem_append, List.not_mem_nil, or_false] at hstep
      obtain rfl | hkey | rfl := hstep
      · rfl
      · exact Literal.isFault_of_mem hkey
      · rfl

theorem Lookup.length_le_tokens (l : Lookup) : l.steps.length + 3 ≤ l.tokens.length := by
  have hsteps (steps : List Step) : steps.length ≤ (steps.flatMap Step.tokens).length := by
    induction steps with
    | nil => exact Nat.le_refl 0
    | cons step steps ih =>
      have hstep : 1 ≤ step.tokens.length := by cases step <;> simp [Step.tokens]
      rw [List.flatMap_cons, List.length_append, List.length_cons]
      omega
  have hall := hsteps l.steps
  simp only [tokens, List.length_cons]
  omega

/-- There is fuel for a lookup in what tokens with its tokens in them are read with. -/
theorem Lookup.exists_fuel (l : Lookup) (tokens : List Token)
    (h : l.tokens.length ≤ tokens.length) :
    ∃ k, Reader.fuelFor tokens - 3 = k + l.steps.length + 20 + 1 := by
  have hlength := l.length_le_tokens
  refine ⟨Reader.fuelFor tokens - 3 - l.steps.length - 21, ?_⟩
  rw [Reader.fuelFor]
  omega

end Stencil

namespace Gate

/-! ## Gates of given tokens -/

/-- Whether a gate is written with lexemes of some tokens. White space stands anywhere between them,
and nowhere if they can be told apart without it. -/
def Says (gate : String) (tokens : List Token) : Prop :=
  ∃ xs, Writes gate.toList xs ∧ xs.map Lexeme.token = tokens

variable {gate : String} {tokens : List Token}

theorem Says.ofExpression (h : Says gate tokens) (hplain : ∀ t ∈ tokens, t.isFault = false) :
    Token.ofExpression gate.toList = tokens := by
  obtain ⟨xs, hxs, rfl⟩ := h
  rw [ofExpression_of_writes hxs, upToFault_eq_self hplain]

/-- A gate with more than one token is decided by the value of what its tokens are read as. -/
theorem Says.evaluate_eq {context : Context} (h : Says gate tokens)
    (hplain : ∀ t ∈ tokens, t.isFault = false) (hlong : 1 < tokens.length) {e : Expr} {v : Value}
    (hread : Reader.notExpr (Reader.fuelFor tokens - 3) 1 ⟨tokens, []⟩ = .ok (e, ⟨[], []⟩))
    (hvalue : ∀ call, Run.eval { lenient := true, root := context.root } call e Machine.start =
      .ok (v, Machine.start)) :
    evaluate context gate = .ok (isTrueFlag v) := by
  have htokens := h.ofExpression hplain
  have hword : ¬(gate = "" ∨ gate = "always") := by
    rintro (rfl | rfl) <;> rw [← htokens] at hlong <;> exact absurd hlong (by decide +kernel)
  have hspelled : spellOut gate = gate := by
    obtain ⟨xs, hxs, -⟩ := h
    rw [spellOut, spellOutFrom_of_writes hxs, String.ofList_toList]
  have hv : e.value true context.root = .ok v := by
    rw [Expr.value]
    exact congrArg (Except.map fun r => r.2.view r.1) (hvalue _)
  rw [Gate.evaluate_eq, if_neg hword, hspelled, holds_eq_ok_iff]
  exact ⟨e, v, Expr.ofText_of_read htokens hread, hv, isTrueFlag_iff⟩

/-! ## Looking up what is not there -/

section

variable {context : Context} {l : Lookup}
  (habsent : Entries.get? l.name context.answers = none) {gate : String}

include habsent

/-- What is looked up in an answer that is not there is nothing. -/
theorem eval_lookup (call : Invoker) :
    Run.eval { lenient := true, root := context.root } call l.expr Machine.start =
      .ok (.undefined, Machine.start) := by
  refine Run.eval_lookup rfl (fun _ => rfl) l (Run.lookup?_of_frames rfl rfl) ?_
  rw [Value.findKey_answers, habsent]
  rfl

theorem evaluate_lookup (h : Says gate l.tokens) : evaluate context gate = .ok false := by
  obtain ⟨k, hk⟩ := l.exists_fuel l.tokens (Nat.le_refl l.tokens.length)
  have hlength := l.length_le_tokens
  have hread := Reader.notExpr_lookup [] (k + 1) 1 l Closes.nil (by decide)
  rw [List.append_nil, show k + 1 + l.steps.length + 20 = k + l.steps.length + 20 + 1 by omega,
    ← hk] at hread
  exact h.evaluate_eq (fun t => Lookup.isFault_of_mem) (by omega) hread (eval_lookup habsent)

theorem evaluate_not_lookup (h : Says gate (.word "not" :: l.tokens)) :
    evaluate context gate = .ok true := by
  obtain ⟨k, hk⟩ := l.exists_fuel (.word "not" :: l.tokens) (by simp)
  have hlength := l.length_le_tokens
  have hplain : ∀ t ∈ .word "not" :: l.tokens, t.isFault = false :=
    List.forall_mem_cons.mpr ⟨rfl, fun t => Lookup.isFault_of_mem⟩
  have hread := Reader.notExpr_not (Reader.notExpr_lookup [] k 1 l Closes.nil (by decide))
  rw [List.append_nil, ← hk] at hread
  exact h.evaluate_eq hplain (by rw [List.length_cons]; omega) hread
    fun call => Run.eval_not (fun _ => rfl) (eval_lookup habsent call)

theorem evaluate_compare_lookup {s : Sign} {op : Comparison} {b : Bool}
    (hs : s = .equals ∧ op = .eq ∧ b = false ∨ s = .notEquals ∧ op = .ne ∧ b = true) (v : Literal)
    (h : Says gate (l.tokens ++ .sign s :: v.tokens)) : evaluate context gate = .ok b := by
  obtain ⟨k, hk⟩ := l.exists_fuel (l.tokens ++ .sign s :: v.tokens)
    (by rw [List.length_append]; omega)
  have hlength := l.length_le_tokens
  have hplain : ∀ t ∈ l.tokens ++ .sign s :: v.tokens, t.isFault = false :=
    List.forall_mem_append.mpr ⟨fun t => Lookup.isFault_of_mem,
      List.forall_mem_cons.mpr ⟨rfl, fun t => Literal.isFault_of_mem⟩⟩
  have hop : s = .equals ∧ op = .eq ∨ s = .notEquals ∧ op = .ne :=
    hs.imp (fun h => ⟨h.1, h.2.1⟩) fun h => ⟨h.1, h.2.1⟩
  have hread := Reader.notExpr_compare [] (k + 1) 1 hop l v Closes.nil (by decide)
  rw [List.append_nil, show k + 1 + l.steps.length + 20 = k + l.steps.length + 20 + 1 by omega,
    ← hk] at hread
  have hvalue (call : Invoker) : Run.eval { lenient := true, root := context.root } call
      (.compare l.expr [.mk op v.expr]) Machine.start = .ok (.bool b, Machine.start) := by
    obtain ⟨heq, hne⟩ := Run.eval_compare (fun _ => rfl) (eval_lookup habsent call) v
    rcases hs with ⟨-, rfl, rfl⟩ | ⟨-, rfl, rfl⟩
    · exact heq
    · exact hne
  exact h.evaluate_eq hplain (by rw [List.length_append]; omega) hread hvalue

end

/-- Whatever is looked up in an answer that is not there, a gate of it is shut, and open if it is
negated. A gate is shut if it asks for a literal there, and open if it asks for another value. -/
theorem evaluate_absent {context : Context} {l : Lookup}
    (habsent : Entries.get? l.name context.answers = none) (v : Literal) (gate : String) :
    (Says gate l.tokens → evaluate context gate = .ok false) ∧
    (Says gate (.word "not" :: l.tokens) → evaluate context gate = .ok true) ∧
    (Says gate (l.tokens ++ .sign .equals :: v.tokens) → evaluate context gate = .ok false) ∧
    (Says gate (l.tokens ++ .sign .notEquals :: v.tokens) → evaluate context gate = .ok true) :=
  ⟨evaluate_lookup habsent, evaluate_not_lookup habsent,
    evaluate_compare_lookup habsent (Or.inl ⟨rfl, rfl, rfl⟩) v,
    evaluate_compare_lookup habsent (Or.inr ⟨rfl, rfl, rfl⟩) v⟩

/-- A lookup in the answer to a question that was skipped. -/
def skippedLookup : Lookup := ⟨"Db", [.item ⟨false, .str "a", .text "a", .text "a", rfl, rfl⟩]⟩

/-- A gate that asks whether something is not there, with as few blanks as there can be. -/
theorem says_skipped :
    Says "Answers.Db['a']!=-1" (skippedLookup.tokens ++ .sign .notEquals ::
      Literal.tokens ⟨true, .int 1, .int 1, .int (-1), rfl, rfl⟩) := by
  have hnil : IsSpace [] := nofun
  have hend := Writes.space hnil
  have hone := Writes.lexeme (.number '1' [] (by decide) (by decide)) hnil (by decide) hend
  have hminus := Writes.lexeme (.sign .minus) hnil (by decide) hone
  have hdiffers := Writes.lexeme (.sign .notEquals) hnil (by decide) hminus
  have hclose := Writes.lexeme (.sign .bracketClose) hnil (by decide) hdiffers
  have hkey := Writes.lexeme (.literal '\'' ['a'] (Or.inr rfl)
    (.plain (by decide) (by decide) .nil)) hnil (by decide) hclose
  have hopen := Writes.lexeme (.sign .bracketOpen) hnil (by decide) hkey
  have hname := Writes.lexeme (.word 'D' ['b'] (by decide) (List.all_eq_true.mp (by decide))) hnil
    (by decide) hopen
  have hdot := Writes.lexeme (.sign .dot) hnil (by decide) hname
  have hanswers := Writes.lexeme (.word 'A' ['n', 's', 'w', 'e', 'r', 's'] (by decide)
    (List.all_eq_true.mp (by decide))) hnil (by decide) hdot
  exact ⟨_, hanswers, rfl⟩

/-- The gate is open when nothing was answered. -/
theorem evaluate_absent_skipped : evaluate {} "Answers.Db['a']!=-1" = .ok true := by
  have habsent : Entries.get? skippedLookup.name ({} : Context).answers = none := rfl
  exact (evaluate_absent habsent _ _).2.2.2 says_skipped

end Gate

end Scaffold
