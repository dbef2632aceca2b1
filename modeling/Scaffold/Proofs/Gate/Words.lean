import Scaffold.Fill
import Mathlib

/-!
# Gates that are decided as they stand

A few words are decided without reading them. `true` and `false` are the flags that they would be
read as, and `never` would be a name that nothing stands for, so all three come to what reading them
comes to (`holds_word`). Only no word at all, which is no expression, and `always`, which is a name
as `never` is one, are decided in another way (`evaluate_eq`).

What a gate comes to is told by its tree and the value of it : it is open just if the value is the
flag `true`, and a fault of either is told with the expression that has it (`holds_eq_ok_iff`,
`holds_eq_error_iff`). So it makes no difference who asks (`evaluate_alike`).
-/

namespace Scaffold.Gate

open Stencil

/-! ## Reading a gate -/

theorem isTrueFlag_iff {v : Value} : isTrueFlag v = true ↔ v = .bool true := by
  cases v <;> simp [isTrueFlag]

section

variable {context : Context} {expression : String} {tree : Expr}

theorem holds_unreadable {cause : Stencil.Fault}
    (h : Expr.ofText expression.toList = .error cause) :
    holds context expression = .error (.unreadable expression cause) := by
  rw [holds, read, h]
  rfl

theorem holds_decided {v : Value} (h : Expr.ofText expression.toList = .ok tree)
    (hv : tree.value true context.root = .ok v) :
    holds context expression = .ok (isTrueFlag v) := by
  rw [holds, read, h]
  simp only [Except.mapError, bind, Except.bind, hv]
  rfl

theorem holds_undecided {cause : Stencil.Fault} (h : Expr.ofText expression.toList = .ok tree)
    (hv : tree.value true context.root = .error cause) :
    holds context expression = .error (.undecided expression cause) := by
  rw [holds, read, h]
  simp only [Except.mapError, bind, Except.bind, hv]

/-- A gate that is read comes to a decision just if its tree has a value, and it is open just if
the value is the flag `true`. -/
theorem holds_eq_ok_iff {opened : Bool} :
    holds context expression = .ok opened ↔ ∃ tree v, Expr.ofText expression.toList = .ok tree ∧
      tree.value true context.root = .ok v ∧ (opened = true ↔ v = .bool true) := by
  cases h : Expr.ofText expression.toList with
  | error cause => simp [holds_unreadable h]
  | ok tree =>
    cases hv : tree.value true context.root with
    | error cause => simp [holds_undecided h hv, hv]
    | ok v =>
      simp only [holds_decided h hv, hv, Except.ok.injEq, exists_and_left, exists_eq_left',
        ← isTrueFlag_iff]
      cases isTrueFlag v <;> cases opened <;> simp

/-- A gate that is read comes to a fault just if it is no expression or its tree has no value. -/
theorem holds_eq_error_iff {f : Fault} :
    holds context expression = .error f ↔
      (∃ cause, Expr.ofText expression.toList = .error cause ∧ f = .unreadable expression cause) ∨
      ∃ tree cause, Expr.ofText expression.toList = .ok tree ∧
        tree.value true context.root = .error cause ∧ f = .undecided expression cause := by
  cases h : Expr.ofText expression.toList with
  | error cause => simp [holds_unreadable h, eq_comm]
  | ok tree =>
    cases hv : tree.value true context.root with
    | error cause => simp [holds_undecided h hv, hv, eq_comm]
    | ok v => simp [holds_decided h hv, hv]

end

/-! ## Words -/

/-- Reading `true`, `false` or `never` comes to what the word says, whatever can be seen. -/
theorem holds_word (context : Context) :
    holds context "true" = .ok true ∧ holds context "false" = .ok false ∧
      holds context "never" = .ok false := by
  refine ⟨?_, ?_, ?_⟩ <;> cbv

theorem spellOut_word {word : String} (h : word ∈ ["true", "false", "never"]) :
    spellOut word = word := by
  revert word
  decide +kernel

/-- A gate is decided by reading it, unless it is empty or the word `always`. -/
theorem evaluate_eq (context : Context) (expression : String) :
    evaluate context expression =
      if expression = "" ∨ expression = "always" then .ok true
      else holds context (spellOut expression) := by
  obtain ⟨htrue, hfalse, hnever⟩ := holds_word context
  rw [evaluate]
  by_cases halways : expression = "" ∨ expression = "always"
  · have hopen : isOpen expression = true := by rcases halways with rfl | rfl <;> rfl
    rw [if_pos hopen, if_pos halways]
  · rw [if_neg halways]
    obtain ⟨hempty, halways⟩ := not_or.mp halways
    by_cases hword : expression ∈ ["true", "false", "never"]
    · rw [spellOut_word hword]
      simp only [List.mem_cons, List.not_mem_nil, or_false] at hword
      rcases hword with rfl | rfl | rfl
      · rw [htrue]
        rfl
      · rw [hfalse]
        rfl
      · rw [hnever]
        rfl
    · simp only [List.mem_cons, List.not_mem_nil, or_false, not_or] at hword
      have hopen : isOpen expression = false := by simp [isOpen, hempty, halways, hword]
      have hshut : isShut expression = false := by simp [isShut, hword]
      rw [hopen, hshut]
      rfl

/-! ## Who asks -/

/-- A gate is decided in the same way for both kinds of rules, as long as a fill rule has no values
of its own. -/
theorem passes_eq (answers : AnswerMap) (info : TemplateInfo) (env : Entries String)
    (gate : String) :
    passes answers info env gate = evaluate { answers, template := info, vars := [], env } gate := by
  unfold passes
  split
  · rename_i h
    rw [evaluate, if_pos h]
  · rfl

/-- A gate comes to the same decision or the same fault for a question or a copy rule, for whoever
sees no values of a rule, and for a fill rule that has none. Unless it is empty or the word
`always`, that is what reading it comes to : it is open just if its value is the flag `true`. -/
theorem evaluate_alike (t : Template) (answers : AnswerMap) (env : Entries String) (r : FillRule)
    (expression : String) :
    let context : Context := { answers, template := t.manifest.info, env }
    passes answers t.manifest.info env expression = evaluate context expression ∧
    evaluate (FillRule.context t answers env { r with vars := [] }) expression =
      evaluate context expression ∧
    evaluate context expression =
      (if expression = "" ∨ expression = "always" then .ok true
        else holds context (spellOut expression)) ∧
    (∀ opened, holds context (spellOut expression) = .ok opened ↔ ∃ tree v,
      Expr.ofText (spellOut expression).toList = .ok tree ∧
        tree.value true context.root = .ok v ∧ (opened = true ↔ v = .bool true)) ∧
    ∀ f, holds context (spellOut expression) = .error f ↔
      (∃ cause, Expr.ofText (spellOut expression).toList = .error cause ∧
        f = .unreadable (spellOut expression) cause) ∨
      ∃ tree cause, Expr.ofText (spellOut expression).toList = .ok tree ∧
        tree.value true context.root = .error cause ∧
        f = .undecided (spellOut expression) cause :=
  ⟨passes_eq answers t.manifest.info env expression, rfl, evaluate_eq _ expression,
    fun _ => holds_eq_ok_iff, fun _ => holds_eq_error_iff⟩

end Scaffold.Gate
