import Scaffold.Run
import Scaffold.Terminal

/-!
# The program

The program reads its arguments, and makes a project with answers that are typed at a terminal.
It exits with 0 if that went well or only a page was asked for, with 1 if the run failed, and
with 2 if the arguments are no command.
-/

namespace Scaffold

/-- The product that the program is. -/
def Product.quarry : Product where
  name := "quarry"
  displayName := "Quarry"
  description := "CLI for scaffolding projects from templates"
  org := "quarryhq"

/-- A terminal with keys that were typed ahead, in a run. -/
def Terminal.party (env : Entries String) (keys : List Terminal.Key) : Party Terminal.Session where
  respondent := Terminal.respondent env
  start := Terminal.Session.withKeys keys
  disk s := s.disk

namespace Program

/-- How the program ended. -/
inductive Ending where
  | done
  | refused (refusal : Command.Refusal)
  | failed (failure : RunFailure)
deriving DecidableEq, Repr

/-- The exit status of an ending. -/
def Ending.status : Ending → Nat
  | done => 0
  | refused r => if r.isPage then 0 else 2
  | failed _ => 1

/-- The sentence that a failed run ends with. -/
def Ending.message? : Ending → Option String
  | failed f => some f.message
  | _ => none

/-- Runs the program on arguments. -/
def run (env : Entries String) (keys : List Terminal.Key) (args : List String) (d : Depot) :
    Ending × Depot :=
  match Command.parse args with
  | .error r => (.refused r, d)
  | .ok new =>
    match (Run.newProject .quarry env (Terminal.party env keys) new).perform d with
    | (.ok _, d) => (.done, d)
    | (.error f, d) => (.failed f, d)

end Program

end Scaffold
