import Scaffold.Interview

/-!
# Scripted respondents

A respondent that gives prepared replies in order and notes what it is asked. A script that
is used up cancels.
-/

namespace Scaffold.Interview

/-- A prepared reply. -/
inductive Reply where
  | answer (answer : Answer)
  | cancel
  | fail (words : String)
deriving DecidableEq, Repr

/-- What a respondent noticed. -/
inductive Event where
  | begun (name : String)
  | asked (name message : String)
  | refused (name message : String)
deriving DecidableEq, Repr

/-- The replies that are left, and the events so far, last one first. -/
structure Script where
  replies : List Reply
  noticed : List Event := []
deriving DecidableEq, Repr, Inhabited

namespace Script

/-- The events in the order in which they happened. -/
def events (s : Script) : List Event := s.noticed.reverse

/-- Notes an event. -/
def note (e : Event) (s : Script) : Script := { s with noticed := e :: s.noticed }

/-- Gives the next reply. -/
def reply (s : Script) : Except Failure Answer × Script :=
  match s.replies with
  | [] => (.error .cancelled, s)
  | .answer a :: rest => (.ok a, { s with replies := rest })
  | .cancel :: rest => (.error .cancelled, { s with replies := rest })
  | .fail words :: rest => (.error (.prompt (.words words)), { s with replies := rest })

theorem length_replies_reply {s s' : Script} {a : Answer} (h : s.reply = (.ok a, s')) :
    s'.replies.length < s.replies.length := by
  obtain ⟨replies, noticed⟩ := s
  cases replies with
  | nil => simp [reply] at h
  | cons r rest =>
    cases r <;> simp_all [reply]
    simp [← h.2]

/-- How a script takes part. `begins` says what comes of the announcement, which a silent
script does not notice. -/
structure Manner where
  silent : Bool := false
  begins : Except Failure Unit := .ok ()

/-- The respondent that goes by a script. -/
def respondent (m : Manner) : FiniteRespondent Script where
  begins p s := if m.silent then (.ok (), s) else (m.begins, s.note (.begun p.name))
  answer q s := (s.note (.asked q.name q.message)).reply
  refuse q r s := (.ok (), s.note (.refused q.name r.message))
  left s := s.replies.length
  left_answer _ _ _ _ h := by simpa [note] using length_replies_reply h
  left_refuse _ _ _ _ _ h := by
    simp only [Prod.mk.injEq] at h
    simp [← h.2, note]

end Script

end Scaffold.Interview
