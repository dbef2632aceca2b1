import Scaffold.Failure
import Scaffold.Product
import Scaffold.Shell

/-!
# Questions answered in an editor

An editor is a command that is started with one more argument: the path of a file, which it
may change. If it succeeds and has not written to the file, the answer is the default, and so
it is if what it wrote comes to nothing.
-/

namespace Scaffold.Terminal

/-- A step of splitting a command into words. -/
inductive Quoting where
  | none
  | single
  | double
  | comment
deriving DecidableEq, Repr

/-- Splits a command into words as a shell does; none if a quote is not closed. `word` is the
word being read, reversed, if there is one. -/
def wordsFrom (quoting : Quoting) (word : Option (List Char)) : List Char → Option (List String)
  | [] =>
    match quoting with
    | .none | .comment => some (word.elim [] fun w => [String.ofList w.reverse])
    | _ => Option.none
  | c :: rest =>
    let current := word.getD []
    match quoting with
    | .single =>
      if c = '\'' then wordsFrom .none (some current) rest
      else wordsFrom .single (some (c :: current)) rest
    | .double =>
      if c = '"' then wordsFrom .none (some current) rest
      else if c = '\\' then
        match rest with
        | [] => Option.none
        | e :: rest =>
          if e = '\n' then wordsFrom .double (some current) rest
          else if e = '$' ∨ e = '"' ∨ e = '\\' ∨ e.toNat = 96 then
            wordsFrom .double (some (e :: current)) rest
          else wordsFrom .double (some (e :: '\\' :: current)) rest
      else wordsFrom .double (some (c :: current)) rest
    | .none =>
      if c = '\'' then wordsFrom .single (some current) rest
      else if c = '"' then wordsFrom .double (some current) rest
      else if c = '\\' then
        match rest with
        | [] => some [String.ofList ('\\' :: current).reverse]
        | '\n' :: rest => wordsFrom .none word rest
        | e :: rest => wordsFrom .none (some (e :: current)) rest
      else if c = ' ' ∨ c = '\t' ∨ c = '\n' then
        match word with
        | some w => (wordsFrom .none Option.none rest).map (String.ofList w.reverse :: ·)
        | Option.none => wordsFrom .none Option.none rest
      else if c = '#' ∧ word.isNone then wordsFrom .comment Option.none rest
      else wordsFrom .none (some (c :: current)) rest
    | .comment => wordsFrom (if c = '\n' then .none else .comment) Option.none rest

/-- The words of a command; one that cannot be split is one word. -/
def commandWords (command : String) : List String :=
  (wordsFrom .none none command.toList).getD [command]

/-- The command of the editor for a question. -/
def editorCommand (env : Entries String) (d : Question.Display) : String :=
  if d.editor.isEmpty then
    ((Entries.get? "VISUAL" env).or (Entries.get? "EDITOR" env)).getD "vi"
  else d.editor

/-- The path of the file that is edited. -/
def editedFile (d : Question.Display) : Path :=
  let extension := ((Path.mk d.fileName).extension?).elim ".txt" ("." ++ ·)
  ⟨"/tmp/edit-000000000000" ++ extension⟩

/-- What the file holds at first. -/
def initialText (d : Question.Display) : String :=
  if d.appendDefault && !d.hideDefault then d.default else ""

/-- A text without the line ends at its end. -/
def withoutLineEnds (text : String) : String :=
  String.ofList ((text.toList.reverse.dropWhile fun c => c = '\n' || c = '\r').reverse)

/-- Lets an editor change a file that holds the text at first; the new text, unless nothing
was written. -/
def edit (env : Entries String) (q : Question.Display) (d : Disk) :
    Except Disk.Fault (Option String) × Disk :=
  let file := editedFile q
  let prepare : Disk.Action Unit := do
    Disk.Action.makeDirs ⟨"/tmp"⟩
    Disk.Action.writeText file (initialText q)
  match prepare.perform d with
  | (.error f, d) => (.error f, d)
  | (.ok _, d) =>
    let tidy (d : Disk) : Disk := ((Disk.Action.remove file).perform d).2
    match commandWords (editorCommand env q) with
    | [] => (.error .notFound, tidy d)
    | name :: arguments =>
      match Shell.start d name (arguments ++ [file.text]) with
      | .error f => (.error f, tidy d)
      | .ok s =>
        let d := s.disk
        let isWritten := match d.stat file with
          | .ok (location, _) => s.written.contains location
          | .error _ => true
        if s.status = 0 ∧ !isWritten then (.ok none, tidy d)
        else
          match d.readText file with
          | .ok text => (.ok (some (withoutLineEnds text)), tidy d)
          | .error f => (.error f, tidy d)

/-- The answer that an editor gives. -/
def editedAnswer (q : Question.Display) (edited : Option String) : String :=
  match edited with
  | some text => if text.isEmpty then q.default else text
  | none => q.default

end Scaffold.Terminal
