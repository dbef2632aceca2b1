import Scaffold.Interview
import Scaffold.Terminal.Editor
import Scaffold.Terminal.Widget

/-!
# Interviews at a terminal

A respondent that answers with keys that were typed ahead, and with the editor. An editor needs
no keys, so the number of editors that may be started is bounded on its own.
-/

namespace Scaffold

namespace Terminal

/-- What a terminal answers with. -/
structure Session where
  keys : List Key
  disk : Disk
  /-- How many more questions can be answered. -/
  patience : Nat
deriving Inhabited

/-- The failure or answer that an ending stands for. -/
def Ending.result {α : Type} (toAnswer : α → Answer) : Ending α → Except Failure Answer
  | answered a => .ok (toAnswer a)
  | cancelled => .error .cancelled

/-- What is asked for where there is nothing to choose from. -/
def noOptions : Failure := .prompt (.words "No items added to the list")

/-- Answers a question with keys, or with the editor. -/
def answerOnce (env : Entries String) (q : Question) (keys : List Key) (disk : Disk) :
    Except Failure Answer × List Key × Disk :=
  let d := q.display
  let orDefault (t : String) : Answer := .text (if t.isEmpty then d.default else t)
  match q.kind with
  | .input =>
    let (e, keys) := readLine true {} keys
    (e.result orDefault, keys, disk)
  | .multiline =>
    let (e, keys) := readLines false {} keys
    (e.result orDefault, keys, disk)
  | .password =>
    let (e, keys) := readLine false {} keys
    (e.result .text, keys, disk)
  | .confirm =>
    let (e, keys) := readFlag d.defaultFlag keys
    (e.result .flag, keys, disk)
  | .select =>
    if d.options.isEmpty then (.error noOptions, keys, disk)
    else
      let (e, keys) := readOption d.options ((d.options.idxOf? d.default).getD 0) keys
      (e.result .text, keys, disk)
  | .multiSelect =>
    if d.options.isEmpty then (.error noOptions, keys, disk)
    else
      let chosen := d.defaultOptions
      let (e, keys) := readOptions (d.options.map fun o => (o, chosen.contains o)) 0 keys
      (e.result .list, keys, disk)
  | .editor =>
    match edit env d disk with
    | (.ok edited, disk) => (.ok (.text (editedAnswer d edited)), keys, disk)
    | (.error f, disk) => (.error (.prompt (.words s!"IO error: {f.message}")), keys, disk)

/-- Answers a question while there is patience. -/
def answer (env : Entries String) (q : Question) (s : Session) :
    Except Failure Answer × Session :=
  match s.patience with
  | 0 => (.error .cancelled, s)
  | patience + 1 =>
    let (r, keys, disk) := answerOnce env q s.keys s.disk
    (r, { keys, disk, patience })

theorem patience_answer {env : Entries String} {q : Question} {s s' : Session} {a : Answer}
    (h : answer env q s = (.ok a, s')) : s'.patience < s.patience := by
  unfold answer at h
  split at h
  · simp at h
  · rename_i p hp
    simp only [Prod.mk.injEq] at h
    simp [← h.2, hp]

/-- The respondent at a terminal. -/
def respondent (env : Entries String) : FiniteRespondent Session where
  begins _ s := (.ok (), s)
  answer := answer env
  refuse _ _ s := (.ok (), s)
  left s := s.patience
  left_answer _ _ _ _ h := patience_answer h
  left_refuse _ _ _ _ _ h := by
    simp only [Prod.mk.injEq] at h
    simp [← h.2]

/-- How many editors may be started in one interview. -/
def editorPatience : Nat := 1000

/-- A terminal with keys that were typed ahead. -/
def Session.withKeys (keys : List Key) (disk : Disk) : Session :=
  { keys, disk, patience := keys.length + editorPatience }

end Terminal

end Scaffold
