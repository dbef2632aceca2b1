import Scaffold.Answer

/-!
# Validation of answers

The rules that an answer has to meet before it is stored. Length rules look at text answers
only and count characters.
-/

namespace Scaffold

/-- What an answer has to meet. A least length of 0 or 1 and a greatest length of 0 ask for
nothing. -/
structure Validation where
  required : Bool := false
  minLength : Nat := 0
  maxLength : Nat := 0
deriving DecidableEq, Repr, Inhabited

namespace Validation

/-- Why an answer is refused. -/
inductive Rejection where
  | missing
  | tooShort (atLeast : Nat)
  | tooLong (atMost : Nat)
deriving DecidableEq, Repr

/-- The sentence shown for a refused answer. -/
def Rejection.message : Rejection → String
  | missing => "this response is required"
  | tooShort n => s!"this response must be {n} or more characters"
  | tooLong n => s!"this response must have {n} or less characters"

/-- The first rule that an answer breaks. -/
def check (rules : Validation) (answer : Answer) : Except Rejection Unit := do
  if rules.required && answer.isEmpty then
    throw .missing
  if let .text t := answer then
    if 1 < rules.minLength ∧ t.length < rules.minLength then
      throw (.tooShort rules.minLength)
    if 0 < rules.maxLength ∧ rules.maxLength < t.length then
      throw (.tooLong rules.maxLength)

end Validation

end Scaffold
