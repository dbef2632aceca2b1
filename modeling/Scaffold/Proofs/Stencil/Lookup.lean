import Scaffold.Gate.Context
import Scaffold.Proofs.Stencil.Lexemes
import Scaffold.Stencil.Run

/-!
# Lookups

A lookup starts from the answers and goes on by names after dots and by literals between brackets
(`Lookup`). Its tokens are read as just that (`Lookup.binary_tokens`), whatever ends it : nothing
more, a closing mark or bracket, or a comparison (`EndsOperand`).

Looking something up in nothing gives nothing, so once a name is not there, neither is what is
looked up in it (`Lookup.eval_of_absent`).
-/

namespace Scaffold.Stencil

/-! ## Literals and lookups -/

/-- The constant that a token is by itself. -/
def Token.constant? : Token → Option Value
  | .str s => some (.text s)
  | .int n => some (.int n)
  | .float x => some (.float x)
  | .word w =>
    if w = "true" ∨ w = "True" then some (.bool true)
    else if w = "false" ∨ w = "False" then some (.bool false)
    else if w = "none" ∨ w = "None" then some .none
    else none
  | _ => none

/-- A text, a number, a flag or `none`, as it may stand in an expression. A number may have a minus
sign before it. -/
structure Literal where
  isNegated : Bool
  token : Token
  constant : Value
  value : Value
  isConstant : token.constant? = some constant
  isValue : (if isNegated then constant.neg else .ok constant) = .ok value

namespace Literal

/-- The tokens of a literal. -/
def tokens (l : Literal) : List Token :=
  (if l.isNegated then [.sign .minus] else []) ++ [l.token]

/-- The expression that a literal is. -/
def expr (l : Literal) : Expr := if l.isNegated then .neg (.const l.constant) else .const l.constant

end Literal

/-- One step of a lookup. -/
inductive Lookup.Step where
  | attr (name : String)
  | item (key : Literal)

namespace Lookup.Step

/-- The tokens of a step. -/
def tokens : Step → List Token
  | attr name => [.sign .dot, .word name]
  | item key => .sign .bracketOpen :: (key.tokens ++ [.sign .bracketClose])

/-- The step after what an expression comes to. -/
def expr (owner : Expr) : Step → Expr
  | attr name => .attr owner name
  | item key => .item owner key.expr

end Lookup.Step

/-- A lookup of an answer and of what is in it. -/
structure Lookup where
  name : String
  steps : List Lookup.Step

namespace Lookup

/-- The tokens of a lookup. -/
def tokens (l : Lookup) : List Token :=
  .word "Answers" :: .sign .dot :: .word l.name :: l.steps.flatMap Step.tokens

/-- The expression that a lookup is. -/
def expr (l : Lookup) : Expr := l.steps.foldl Step.expr (.attr (.var "Answers") l.name)

end Lookup

/-! ## Reading -/

/-- Whether an expression ends before tokens. -/
inductive Closes : List Token → Prop
  | nil : Closes []
  | valueEnd (ts : List Token) : Closes (.valueEnd :: ts)
  | bracketClose (ts : List Token) : Closes (.sign .bracketClose :: ts)

/-- Whether an operand of a comparison ends before tokens. -/
inductive EndsOperand : List Token → Prop
  | closes {ts : List Token} : Closes ts → EndsOperand ts
  | comparison {s : Sign} (hs : s = .equals ∨ s = .notEquals) (ts : List Token) :
      EndsOperand (.sign s :: ts)

namespace Reader

/-- A step that succeeds leaves its tokens to the next one. -/
theorem bind_ok {α β : Type} {x : Reader α} {f : α → Reader β} {c c' : Cursor} {a : α}
    (h : x c = .ok (a, c')) : (x >>= f) c = f a c' := by
  change Except.bind (x c) _ = _
  rw [h]
  rfl

theorem next_cons {t : Token} (ht : t.isFault = false) (ts : List Token)
    (blocks : List (String × List Stmt)) : next ⟨t :: ts, blocks⟩ = .ok (some t, ⟨ts, blocks⟩) := by
  cases t <;> first
    | rfl
    | cases ht

section Ends

variable {ts : List Token} (blocks : List (String × List Stmt)) (e : Expr) (fuel depth : Nat)

theorem chooseTail_of_closes (h : Closes ts) :
    chooseTail (fuel + 1) depth e ⟨ts, blocks⟩ = .ok (e, ⟨ts, blocks⟩) := by
  rw [chooseTail]
  cases h <;> rfl

theorem orTail_of_closes (h : Closes ts) :
    orTail (fuel + 1) depth e ⟨ts, blocks⟩ = .ok (e, ⟨ts, blocks⟩) := by
  rw [orTail]
  cases h <;> rfl

theorem andTail_of_closes (h : Closes ts) :
    andTail (fuel + 1) depth e ⟨ts, blocks⟩ = .ok (e, ⟨ts, blocks⟩) := by
  rw [andTail]
  cases h <;> rfl

theorem linkTail_of_closes (h : Closes ts) :
    linkTail (fuel + 1) depth ⟨ts, blocks⟩ = .ok ([], ⟨ts, blocks⟩) := by
  rw [linkTail]
  cases h <;> rfl

theorem binaryTail_of_ends (h : EndsOperand ts) (level : Nat) :
    binaryTail (fuel + 1) depth level e ⟨ts, blocks⟩ = .ok (e, ⟨ts, blocks⟩) := by
  rw [binaryTail]
  obtain h | ⟨rfl | rfl, ts⟩ := h
  · cases h <;> rfl
  · rfl
  · rfl

theorem filterTail_of_ends (h : EndsOperand ts) :
    filterTail (fuel + 1) depth e ⟨ts, blocks⟩ = .ok (e, ⟨ts, blocks⟩) := by
  rw [filterTail]
  obtain h | ⟨rfl | rfl, ts⟩ := h
  · cases h <;> rfl
  · rfl
  · rfl

theorem postfixTail_of_ends (h : EndsOperand ts) :
    postfixTail (fuel + 1) depth e ⟨ts, blocks⟩ = .ok (e, ⟨ts, blocks⟩) := by
  rw [postfixTail]
  obtain h | ⟨rfl | rfl, ts⟩ := h
  · cases h <;> rfl
  · rfl
  · rfl

theorem moreText_of_ends (h : EndsOperand ts) (s : String) :
    moreText fuel s ⟨ts, blocks⟩ = .ok (s, ⟨ts, blocks⟩) := by
  cases fuel with
  | zero => rfl
  | succ fuel =>
    rw [moreText]
    obtain h | ⟨rfl | rfl, ts⟩ := h
    · cases h <;> rfl
    · rfl
    · rfl

end Ends

section Levels

variable {ts : List Token} {blocks : List (String × List Stmt)} {e : Expr} {fuel depth : Nat}
  {c : Cursor}

/-- What is read with nothing looser around it is read at the loosest level of operators. -/
theorem binary_zero (hend : EndsOperand ts)
    (h : binary (fuel + 1) depth 4 c = .ok (e, ⟨ts, blocks⟩)) :
    binary (fuel + 5) depth 0 c = .ok (e, ⟨ts, blocks⟩) := by
  have hlooser {level fuel : Nat} (hlevel : level < 4)
      (h : binary (fuel + 1) depth (level + 1) c = .ok (e, ⟨ts, blocks⟩)) :
      binary (fuel + 2) depth level c = .ok (e, ⟨ts, blocks⟩) := by
    rw [binary, if_neg (by omega)]
    exact (bind_ok h).trans (binaryTail_of_ends blocks e fuel depth hend level)
  exact hlooser (by omega) (hlooser (by omega) (hlooser (by omega) (hlooser (by omega) h)))

/-- An operand without a comparison after it is a condition. -/
theorem notExpr_of_binary (hend : Closes ts) (hnot : skipWord "not" c = .ok (false, c))
    (h : binary (fuel + 1) depth 0 c = .ok (e, ⟨ts, blocks⟩)) :
    notExpr (fuel + 2) depth c = .ok (e, ⟨ts, blocks⟩) := by
  rw [notExpr]
  exact (bind_ok hnot).trans ((bind_ok h).trans
    ((bind_ok (linkTail_of_closes blocks fuel depth hend)).trans rfl))

/-- A condition after `not` is negated. -/
theorem notExpr_not {ts' : List Token}
    (h : notExpr fuel depth ⟨ts', blocks⟩ = .ok (e, ⟨ts, blocks⟩)) :
    notExpr (fuel + 1) depth ⟨.word "not" :: ts', blocks⟩ = .ok (.not e, ⟨ts, blocks⟩) := by
  have hskip : skipWord "not" ⟨.word "not" :: ts', blocks⟩ = .ok (true, ⟨ts', blocks⟩) := rfl
  rw [notExpr]
  exact (bind_ok hskip).trans ((bind_ok h).trans rfl)

/-- A condition by itself is an expression. -/
theorem expr_of_notExpr (hend : Closes ts) (hdepth : depth < maxDepth)
    (h : notExpr (fuel + 1) (depth + 1) c = .ok (e, ⟨ts, blocks⟩)) :
    Reader.expr (fuel + 4) depth c = .ok (e, ⟨ts, blocks⟩) := by
  have hand : andExpr (fuel + 2) (depth + 1) c = .ok (e, ⟨ts, blocks⟩) := by
    rw [andExpr]
    exact (bind_ok h).trans (andTail_of_closes blocks e fuel (depth + 1) hend)
  have hor : orExpr (fuel + 3) (depth + 1) c = .ok (e, ⟨ts, blocks⟩) := by
    rw [orExpr]
    exact (bind_ok hand).trans (orTail_of_closes blocks e (fuel + 1) (depth + 1) hend)
  rw [Reader.expr, if_neg (Nat.not_le.mpr hdepth)]
  exact (bind_ok hor).trans (chooseTail_of_closes blocks e (fuel + 2) (depth + 1) hend)

end Levels

/-! ### Literals -/

section Operand

variable {ts : List Token} (blocks : List (String × List Stmt)) (fuel depth : Nat)

/-- A token that is a constant is read as it. -/
theorem primary_constant {t : Token} {v : Value} (ht : t.constant? = some v)
    (hend : EndsOperand ts) (hdepth : depth < maxDepth) :
    primary (fuel + 1) depth ⟨t :: ts, blocks⟩ = .ok (.const v, ⟨ts, blocks⟩) := by
  rw [primary, if_neg (Nat.not_le.mpr hdepth)]
  cases t with
  | word w =>
    rw [Token.constant?] at ht
    refine (bind_ok (next_cons rfl ts blocks)).trans ?_
    dsimp only
    split_ifs at ht ⊢ <;> cases ht <;> rfl
  | str s =>
    cases ht
    refine (bind_ok (next_cons rfl ts blocks)).trans ?_
    exact (bind_ok (moreText_of_ends blocks fuel hend s)).trans rfl
  | int n => cases ht; rfl
  | float x => cases ht; rfl
  | _ => cases ht

theorem skipSign_constant {t : Token} {v : Value} (ht : t.constant? = some v) (s : Sign) :
    skipSign s ⟨t :: ts, blocks⟩ = .ok (false, ⟨t :: ts, blocks⟩) := by
  cases t <;> first
    | rfl
    | cases ht

theorem signed_literal (l : Literal) (hend : EndsOperand ts) (hdepth : depth < maxDepth) :
    signed (fuel + 3) depth ⟨l.tokens ++ ts, blocks⟩ = .ok (l.expr, ⟨ts, blocks⟩) := by
  have hconstant (fuel : Nat) : signed (fuel + 2) depth ⟨l.token :: ts, blocks⟩ =
      .ok (.const l.constant, ⟨ts, blocks⟩) := by
    rw [signed]
    exact (bind_ok (skipSign_constant blocks l.isConstant .minus)).trans
      (primary_constant blocks fuel depth l.isConstant hend hdepth)
  rw [Literal.tokens, Literal.expr]
  cases l.isNegated with
  | false => exact hconstant (fuel + 1)
  | true =>
    have hskip (ts : List Token) : skipSign .minus ⟨.sign .minus :: ts, blocks⟩ =
        .ok (true, ⟨ts, blocks⟩) := rfl
    rw [signed]
    exact (bind_ok (hskip _)).trans ((bind_ok (hconstant fuel)).trans rfl)

/-- The tokens of a literal are read as the literal. -/
theorem binary_literal (l : Literal) (hend : EndsOperand ts) (hdepth : depth < maxDepth) :
    binary (fuel + 8) depth 0 ⟨l.tokens ++ ts, blocks⟩ = .ok (l.expr, ⟨ts, blocks⟩) := by
  refine binary_zero hend ?_
  rw [binary, if_pos (Nat.le_refl 4)]
  exact (bind_ok (signed_literal blocks fuel depth l hend hdepth)).trans
    ((bind_ok (postfixTail_of_ends blocks l.expr (fuel + 2) depth hend)).trans
      (filterTail_of_ends blocks l.expr (fuel + 2) depth hend))

theorem skipWord_of_ne {v w : String} (h : v ≠ w) (ts : List Token) :
    skipWord w ⟨.word v :: ts, blocks⟩ = .ok (false, ⟨.word v :: ts, blocks⟩) := by
  have hat : atWord w ⟨.word v :: ts, blocks⟩ = .ok (false, ⟨.word v :: ts, blocks⟩) := by
    change Except.ok (decide (v = w), _) = _
    rw [decide_eq_false h]
  exact (bind_ok hat).trans rfl

theorem skipWord_literal (l : Literal) : skipWord "not" ⟨l.tokens ++ ts, blocks⟩ =
    .ok (false, ⟨l.tokens ++ ts, blocks⟩) := by
  rw [Literal.tokens]
  cases l.isNegated with
  | true => rfl
  | false =>
    have hconstant := l.isConstant
    cases ht : l.token with
    | word w =>
      rw [ht] at hconstant
      refine skipWord_of_ne blocks ?_ ts
      rintro rfl
      cases hconstant
    | fault f =>
      rw [ht] at hconstant
      cases hconstant
    | _ => rfl

/-- A literal is also an expression by itself. -/
theorem expr_literal (l : Literal) (hend : Closes ts) (hdepth : depth + 1 < maxDepth) :
    Reader.expr (fuel + 12) depth ⟨l.tokens ++ ts, blocks⟩ = .ok (l.expr, ⟨ts, blocks⟩) := by
  refine expr_of_notExpr hend (by omega) ?_
  refine notExpr_of_binary hend (skipWord_literal blocks l) ?_
  exact binary_literal blocks fuel (depth + 1) l (.closes hend) hdepth

/-! ### Lookups -/

theorem atSign_literal (l : Literal) : atSign .colon ⟨l.tokens ++ ts, blocks⟩ =
    .ok (false, ⟨l.tokens ++ ts, blocks⟩) := by
  rw [Literal.tokens]
  cases l.isNegated with
  | true => rfl
  | false =>
    have hconstant := l.isConstant
    cases ht : l.token <;> rw [ht] at hconstant <;> first
      | rfl
      | cases hconstant

/-- A literal between brackets is read as a subscript. -/
theorem subscript_literal (l : Literal) (e : Expr) (hdepth : depth + 1 < maxDepth) :
    subscript (fuel + 13) depth e ⟨l.tokens ++ .sign .bracketClose :: ts, blocks⟩ =
      .ok (.item e l.expr, ⟨ts, blocks⟩) := by
  have hread := expr_literal blocks fuel depth l (.bracketClose ts) hdepth
  rw [subscript]
  exact (bind_ok (atSign_literal blocks l)).trans ((bind_ok ((bind_ok hread).trans rfl)).trans rfl)

/-- The steps of a lookup are read one after the other. -/
theorem postfixTail_steps (steps : List Lookup.Step) (e : Expr) (hend : EndsOperand ts)
    (hdepth : depth + 1 < maxDepth) :
    postfixTail (fuel + steps.length + 13) depth e
      ⟨steps.flatMap Lookup.Step.tokens ++ ts, blocks⟩ =
        .ok (steps.foldl Lookup.Step.expr e, ⟨ts, blocks⟩) := by
  induction steps generalizing e with
  | nil => exact postfixTail_of_ends blocks e (fuel + 12) depth hend
  | cons step steps ih =>
    rw [List.length_cons, ← Nat.add_assoc, List.flatMap_cons, List.append_assoc, List.foldl_cons]
    rw [show fuel + steps.length + 1 + 13 = fuel + steps.length + 13 + 1 by omega, postfixTail]
    cases step with
    | attr name => exact ih (.attr e name)
    | item key =>
      have hopen (ts : List Token) : skipSign .bracketOpen ⟨.sign .bracketOpen :: ts, blocks⟩ =
          .ok (true, ⟨ts, blocks⟩) := rfl
      have hdot (ts : List Token) : skipSign .dot ⟨.sign .bracketOpen :: ts, blocks⟩ =
          .ok (false, ⟨.sign .bracketOpen :: ts, blocks⟩) := rfl
      have htokens : (Lookup.Step.item key).tokens ++ (steps.flatMap Lookup.Step.tokens ++ ts) =
          .sign .bracketOpen :: (key.tokens ++
            .sign .bracketClose :: (steps.flatMap Lookup.Step.tokens ++ ts)) := by
        simp [Lookup.Step.tokens]
      rw [htokens]
      refine (bind_ok (hdot _)).trans ((bind_ok (hopen _)).trans ?_)
      exact (bind_ok (subscript_literal blocks (fuel + steps.length) depth key e hdepth)).trans
        (ih (.item e key.expr))

/-- The tokens of a lookup are read as the lookup. -/
theorem binary_lookup (l : Lookup) (hend : EndsOperand ts) (hdepth : depth + 1 < maxDepth) :
    binary (fuel + l.steps.length + 19) depth 0 ⟨l.tokens ++ ts, blocks⟩ =
      .ok (l.expr, ⟨ts, blocks⟩) := by
  have hsigned (fuel : Nat) (ts : List Token) :
      signed (fuel + 2) depth ⟨.word "Answers" :: ts, blocks⟩ =
        .ok (.var "Answers", ⟨ts, blocks⟩) := by
    rw [signed]
    change primary (fuel + 1) depth _ = _
    rw [primary, if_neg (by omega)]
    rfl
  have hsteps : postfixTail (fuel + l.steps.length + 13 + 1) depth (.var "Answers")
      ⟨.sign .dot :: .word l.name :: (l.steps.flatMap Lookup.Step.tokens ++ ts), blocks⟩ =
        .ok (l.expr, ⟨ts, blocks⟩) := by
    rw [postfixTail]
    exact postfixTail_steps blocks fuel depth l.steps (.attr (.var "Answers") l.name) hend hdepth
  refine binary_zero hend ?_
  rw [binary, if_pos (Nat.le_refl 4)]
  exact (bind_ok (hsigned _ _)).trans ((bind_ok hsteps).trans
    (filterTail_of_ends blocks l.expr _ depth hend))

theorem skipWord_lookup (l : Lookup) (ts : List Token) : skipWord "not" ⟨l.tokens ++ ts, blocks⟩ =
    .ok (false, ⟨l.tokens ++ ts, blocks⟩) := skipWord_of_ne blocks (by decide) _

theorem notExpr_lookup (l : Lookup) (hend : Closes ts) (hdepth : depth + 1 < maxDepth) :
    notExpr (fuel + l.steps.length + 20) depth ⟨l.tokens ++ ts, blocks⟩ =
      .ok (l.expr, ⟨ts, blocks⟩) :=
  notExpr_of_binary hend (skipWord_lookup blocks l ts)
    (binary_lookup blocks fuel depth l (.closes hend) hdepth)

/-- A lookup that is compared with a literal. -/
theorem notExpr_compare {s : Sign} {op : Comparison} (hs : s = .equals ∧ op = .eq ∨
    s = .notEquals ∧ op = .ne) (l : Lookup) (v : Literal) (hend : Closes ts)
    (hdepth : depth + 1 < maxDepth) :
    notExpr (fuel + l.steps.length + 20) depth
      ⟨l.tokens ++ .sign s :: (v.tokens ++ ts), blocks⟩ =
        .ok (.compare l.expr [.mk op v.expr], ⟨ts, blocks⟩) := by
  have hcompares : s = .equals ∨ s = .notEquals := hs.imp And.left And.left
  have htake : takeComparison ⟨.sign s :: (v.tokens ++ ts), blocks⟩ =
      .ok (some op, ⟨v.tokens ++ ts, blocks⟩) := by
    rcases hs with ⟨rfl, rfl⟩ | ⟨rfl, rfl⟩ <;> rfl
  have hlink : linkTail (fuel + l.steps.length + 19) depth
      ⟨.sign s :: (v.tokens ++ ts), blocks⟩ = .ok ([.mk op v.expr], ⟨ts, blocks⟩) := by
    rw [linkTail]
    exact (bind_ok htake).trans
      ((bind_ok (binary_literal blocks _ depth v (.closes hend) (by omega))).trans
        ((bind_ok (linkTail_of_closes blocks _ depth hend)).trans rfl))
  rw [notExpr]
  exact (bind_ok (skipWord_lookup blocks l _)).trans
    ((bind_ok (binary_lookup blocks fuel depth l (.comparison hcompares _) hdepth)).trans
      ((bind_ok hlink).trans rfl))

end Operand

end Reader

/-- What tokens are read as is what their text is. -/
theorem Expr.ofText_of_read {text : List Char} {tokens : List Token} {e : Expr}
    (htokens : Token.ofExpression text = tokens)
    (h : Reader.notExpr (Reader.fuelFor tokens - 3) 1 ⟨tokens, []⟩ = .ok (e, ⟨[], []⟩)) :
    Expr.ofText text = .ok e := by
  subst htokens
  obtain ⟨k, hk⟩ : ∃ k, Reader.fuelFor (Token.ofExpression text) = k + 4 :=
    ⟨Reader.fuelFor (Token.ofExpression text) - 4, by rw [Reader.fuelFor]; omega⟩
  rw [hk] at h
  have hexpr := Reader.expr_of_notExpr .nil (by decide) h
  rw [Expr.ofText, hk]
  exact congrArg (Except.map (·.1)) ((Reader.bind_ok hexpr).trans rfl)

/-! ## Values -/

theorem Value.order_text (a b : String) : Value.order (.text a) (.text b) = .eq ↔ a = b := by
  rw [Value.order, if_neg fun h => h rfl]
  exact Std.compare_eq_iff_eq

/-- An answer stands under its name among the values that expressions see. -/
theorem Value.findKey_answers (name : String) (answers : AnswerMap) :
    Value.findKey (.text name)
        ((answers.map fun p => (p.1, p.2.toValue)).map fun f => (.text f.1, f.2)) =
      (Entries.get? name answers).map Answer.toValue := by
  induction answers with
  | nil => rfl
  | cons entry rest ih =>
    obtain ⟨k, v⟩ := entry
    rw [List.map_cons, List.map_cons, findKey, Entries.get?, ih]
    by_cases hk : k = name
    · rw [if_pos ((order_text k name).mpr hk), if_pos hk, Option.map_some]
    · rw [if_neg fun heq => hk ((order_text k name).mp heq), if_neg hk]

/-- Nothing is equal to nothing alone. -/
theorem Value.equal_undefined {v : Value} (h : v ≠ .undefined) :
    Value.equal .undefined v = false := by
  cases v <;> first
    | exact absurd rfl h
    | rfl

theorem Value.neg_ne {v w : Value} (h : v.neg = .ok w) : w ≠ .undefined := by
  rintro rfl
  cases v with
  | int n =>
    simp only [neg, checkedInt] at h
    split_ifs at h
    all_goals cases h
  | float x => cases h
  | _ => cases h

theorem Token.constant?_ne {t : Token} {v : Value} (h : t.constant? = some v) :
    v ≠ .undefined := by
  rintro rfl
  cases t with
  | word w =>
    rw [constant?] at h
    split_ifs at h
    all_goals cases h
  | _ => cases h

theorem Literal.value_ne (l : Literal) : l.value ≠ .undefined := by
  have hvalue := l.isValue
  split at hvalue
  · exact Value.neg_ne hvalue
  · rw [← Except.ok.inj hvalue]
    exact Token.constant?_ne l.isConstant

namespace Run

variable {s : Setting} {call : Invoker} {m : Machine}

/-- A step that succeeds leaves its state to the next one. -/
theorem bind_ok {α β : Type} {x : Run α} {f : α → Run β} {m m' : Machine} {a : α}
    (h : x m = .ok (a, m')) : (x >>= f) m = f a m' := by
  change Except.bind (x m) _ = _
  rw [h]
  rfl

/-- Outside of loops and macros a name is looked up among those that are there from the start. -/
theorem lookup?_of_frames {name : String} {v : Value} (hframes : m.frames = [{ base := .root }])
    (h : (s.root.find? (·.1 == name)).map (·.2) = some v) : m.lookup? s name = some v := by
  have hframe : Machine.frameValue? s m name { base := .root } = some v := h
  rw [Machine.lookup?, hframes, List.findSome?_cons, hframe]

theorem view_eq (hview : ∀ v, m.view v = v) (v : Value) : view v m = .ok (v, m) :=
  congrArg (fun v => Except.ok (v, m)) (hview v)

theorem eval_literal (l : Literal) : eval s call l.expr m = .ok (l.value, m) := by
  have hvalue := l.isValue
  rw [Literal.expr]
  cases hneg : l.isNegated with
  | false =>
    rw [hneg] at hvalue
    rw [← Except.ok.inj hvalue]
    rfl
  | true =>
    rw [hneg, if_pos rfl] at hvalue
    have hconst : eval s call (.const l.constant) m = .ok (l.constant, m) := rfl
    rw [if_pos rfl, eval]
    refine (bind_ok hconst).trans ?_
    change Except.map (·, m) _ = _
    rw [hvalue]
    rfl

/-- Nothing is found in nothing. -/
theorem eval_steps (hlenient : s.lenient = true) (hview : ∀ v, m.view v = v)
    (steps : List Lookup.Step) {e : Expr} (he : eval s call e m = .ok (.undefined, m)) :
    eval s call (steps.foldl Lookup.Step.expr e) m = .ok (.undefined, m) := by
  have hmissing : missing s .undefined m = .ok (.undefined, m) := by
    rw [missing, hlenient]
    rfl
  induction steps generalizing e with
  | nil => exact he
  | cons step steps ih =>
    refine ih ?_
    cases step with
    | attr name =>
      rw [Lookup.Step.expr, eval]
      exact (bind_ok he).trans hmissing
    | item key =>
      rw [Lookup.Step.expr, eval]
      exact (bind_ok he).trans ((bind_ok (eval_literal key)).trans
        ((bind_ok (view_eq hview key.value)).trans hmissing))

/-- A lookup of a name that is not there comes to nothing. -/
theorem eval_lookup (hlenient : s.lenient = true) (hview : ∀ v, m.view v = v) (l : Lookup)
    {entries : List (Value × Value)} (hanswers : m.lookup? s "Answers" = some (.map entries))
    (habsent : Value.findKey (.text l.name) entries = none) :
    eval s call l.expr m = .ok (.undefined, m) := by
  refine eval_steps hlenient hview l.steps ?_
  have hvar : eval s call (.var "Answers") m = .ok (.map entries, m) := by
    rw [eval]
    change Except.ok ((m.lookup? s "Answers").getD .undefined, m) = _
    rw [hanswers]
    rfl
  have hattr : m.attr? l.name (.map entries) = none := habsent
  rw [eval]
  refine (bind_ok hvar).trans ((bind_ok rfl).trans ?_)
  rw [hattr]
  rfl

/-- The negation of nothing is true. -/
theorem eval_not (hview : ∀ v, m.view v = v) {e : Expr}
    (he : eval s call e m = .ok (.undefined, m)) :
    eval s call (.not e) m = .ok (.bool true, m) := by
  rw [eval]
  exact (bind_ok he).trans ((bind_ok (view_eq hview .undefined)).trans rfl)

/-- Nothing differs from every literal. -/
theorem eval_compare (hview : ∀ v, m.view v = v) {e : Expr}
    (he : eval s call e m = .ok (.undefined, m)) (l : Literal) :
    eval s call (.compare e [.mk .eq l.expr]) m = .ok (.bool false, m) ∧
      eval s call (.compare e [.mk .ne l.expr]) m = .ok (.bool true, m) := by
  have hequal := Value.equal_undefined l.value_ne
  have hlift (op : Comparison) (b : Bool) (h : compare op .undefined l.value = .ok b) :
      eval s call (.compare e [.mk op l.expr]) m = .ok (.bool b, m) := by
    have hcompare : lift (compare op .undefined l.value) m = .ok (b, m) := by
      rw [h]
      rfl
    rw [eval]
    refine (bind_ok he).trans ((bind_ok (view_eq hview .undefined)).trans ?_)
    rw [evalLinks]
    refine (bind_ok (eval_literal l)).trans ((bind_ok (view_eq hview l.value)).trans ?_)
    refine (bind_ok hcompare).trans ?_
    cases b <;> rfl
  refine ⟨hlift .eq false (congrArg Except.ok hequal), hlift .ne true ?_⟩
  rw [compare, hequal]
  rfl

end Run

end Scaffold.Stencil
