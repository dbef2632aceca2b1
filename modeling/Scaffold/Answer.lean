import Scaffold.Entries

/-!
# Answers

An `Answer` is what one question yields. `AnswerMap` holds the answers of one template by
question name, each with a shadow entry for the answer before its transform, and
`AnswerStore` holds the maps of every template asked so far.
-/

namespace Scaffold

/-- A single answer. -/
inductive Answer where
  | text (text : String)
  | flag (yes : Bool)
  | list (items : List String)
deriving DecidableEq, Repr, Inhabited

namespace Answer

/-- A text without characters and a list without items are empty; a flag never is. -/
def isEmpty : Answer → Bool
  | text t => t.isEmpty
  | flag _ => false
  | list items => items.isEmpty

/-- The text of a text answer. -/
def asText? : Answer → Option String
  | text t => some t
  | _ => none

end Answer

/-- Answers by question name. -/
abbrev AnswerMap := Entries Answer

namespace AnswerMap

/-- The name under which the answer before its transform is kept. -/
def rawName (name : String) : String := "Raw" ++ name

/-- Stores an answer and, under the raw name, what it was before its transform. -/
def record (name : String) (raw transformed : Answer) (answers : AnswerMap) : AnswerMap :=
  Entries.insert name transformed (Entries.insert (rawName name) raw answers)

/-- Reading after a record: the name shadows its own raw name, never the other way round. -/
theorem get?_record (name other : String) (raw transformed : Answer) (answers : AnswerMap) :
    Entries.get? other (record name raw transformed answers) =
      if name = other then some transformed
      else if rawName name = other then some raw
      else Entries.get? other answers := by
  simp [record, Entries.get?_insert]

end AnswerMap

/-- The answers collected so far, by template name. -/
structure AnswerStore where
  templates : Entries AnswerMap := []
deriving Repr, Inhabited

namespace AnswerStore

/-- The answers of a template; none if it was never asked. -/
def answers (store : AnswerStore) (template : String) : AnswerMap :=
  (Entries.get? template store.templates).getD []

/-- Replaces the answers of a template. -/
def commit (store : AnswerStore) (template : String) (answers : AnswerMap) : AnswerStore :=
  ⟨Entries.insert template answers store.templates⟩

/-- Drops the answers of every template. -/
def reset (_ : AnswerStore) : AnswerStore := {}

@[simp] theorem answers_commit (store : AnswerStore) (template other : String)
    (answers : AnswerMap) :
    (store.commit template answers).answers other =
      if template = other then answers else store.answers other := by
  by_cases h : template = other <;> simp [commit, AnswerStore.answers, Entries.get?_insert, h]

/-- Of two commits under one name the later one counts. -/
theorem commit_commit (store : AnswerStore) (name : String) (old new : AnswerMap) :
    (store.commit name old).commit name new = store.commit name new := by
  rw [commit, commit, commit, Entries.insert_insert]

@[simp] theorem answers_reset (store : AnswerStore) (name : String) :
    store.reset.answers name = [] := rfl

end AnswerStore

end Scaffold
