/-!
# Visiting what is nested

Things that hold others are visited from the outside in, each one before what it holds, down to
some depth. The first failure ends the visit.
-/

namespace Scaffold.Nested

variable {m : Type → Type} [Monad m] {α β : Type}

/-- Enters each of some things, and goes on with `next` before it comes to the one after. -/
def visitEach (enter : β → m α) (next : α → m Unit) : List β → m Unit
  | [] => pure ()
  | b :: rest => do
    next (← enter b)
    visitEach enter next rest

/-- Visits what a thing holds, at most `depth` levels of it. -/
def visit (children : α → m (List β)) (enter : α → β → m α) : Nat → α → m Unit
  | 0, _ => pure ()
  | depth + 1, a => do visitEach (enter a) (visit children enter depth) (← children a)

end Scaffold.Nested
