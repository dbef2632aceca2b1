import Scaffold.Disk.Action
import Scaffold.Shell.Script
import Scaffold.Shell.Tool

/-!
# Running scripts

A script reads and writes files of a disk, and what it writes to its output can become the
value of a word or the input of the next command. Which files it wrote to is noted, since an
editor that wrote nothing has changed nothing.
-/

namespace Scaffold

namespace Shell

/-- What a script works on and what became of it so far. -/
structure Session where
  disk : Disk
  values : Entries String := []
  arguments : List String := []
  status : Nat := 0
  /-- Where files were written. -/
  written : List Disk.Location := []
  /-- Whether the script has ended. -/
  isOver : Bool := false
deriving Inhabited

namespace Session

/-- The value of a variable. -/
def value (s : Session) (name : String) : String :=
  match name with
  | "#" => toString (s.arguments.length - 1)
  | "?" => toString s.status
  | "@" | "*" => " ".intercalate (s.arguments.drop 1)
  | _ =>
    match Decimal.readDigits? 10 name.toList with
    | some n => s.arguments.getD n ""
    | none => (Entries.get? name s.values).getD ""

/-- Ends a command with a status. -/
def withStatus (s : Session) (status : Nat) : Session := { s with status }

/-- Does something to the disk; a fault is a status. -/
def act (s : Session) (a : Disk.Action Unit) : Session :=
  match a.perform s.disk with
  | (.ok _, disk) => { s with disk, status := 0 }
  | (.error _, disk) => { s with disk, status := 1 }

/-- Notes that a file was written. -/
def noteWritten (s : Session) (p : Path) : Session :=
  match s.disk.stat p with
  | .ok (location, _) => { s with written := location :: s.written }
  | .error _ => s

/-- Writes bytes to a file, after those that are there or instead of them. -/
def writeFile (s : Session) (append : Bool) (file : String) (bytes : List UInt8) : Session :=
  let p : Path := ⟨file⟩
  let before := if append then ((s.disk.readBytes p).toOption.map (·.toList)).getD [] else []
  let done := s.act (Disk.Action.writeBytes p ⟨(before ++ bytes).toArray⟩)
  if append && bytes.isEmpty then done else done.noteWritten p

/-- The bytes of a file. -/
def readFile (s : Session) (file : String) : Option (List UInt8) :=
  ((s.disk.readBytes ⟨file⟩).toOption).map (·.toList)

end Session

/-- A text that scripts made of bytes. -/
def textOf (bytes : List UInt8) : String :=
  (String.fromUTF8? ⟨bytes.toArray⟩).getD (String.ofList (bytes.map fun b => Char.ofNat b.toNat))

/-- Cuts a value where a pattern fits. -/
def cutValue (how : Cut) (pattern : List Char) (value : String) : String :=
  let chars := value.toList
  let starts := fittingStarts pattern chars
  let ends := fittingEnds pattern chars
  match how with
  | .shortestStart => String.ofList (chars.drop (starts.head?.getD 0))
  | .longestStart => String.ofList (chars.drop (starts.getLast?.getD 0))
  | .shortestEnd => String.ofList (chars.take (ends.getLast?.getD chars.length))
  | .longestEnd => String.ofList (chars.take (ends.head?.getD chars.length))

/-- The words that are made so far: those that are complete, last one first, and the one that
is being made. -/
structure Making where
  complete : List String := []
  current : Option String := none

namespace Making

/-- Adds to the word that is being made. -/
def add (m : Making) (text : String) : Making :=
  { m with current := some (m.current.getD "" ++ text) }

/-- Completes the word that is being made. -/
def finish (m : Making) : Making :=
  match m.current with
  | some w => { complete := w :: m.complete }
  | none => m

/-- Adds a value that is split at blanks. -/
def addSplit (m : Making) : List Char → Making
  | [] => m
  | c :: rest => (if c.isWhitespace then m.finish else m.add (String.singleton c)).addSplit rest

/-- Adds a value. -/
def addValue (m : Making) (quoted : Bool) (value : String) : Making :=
  if quoted then m.add value else m.addSplit value.toList

/-- The words. -/
def words (m : Making) : List String := m.finish.complete.reverse

end Making

/-- What a script writes when its value is taken: without the line ends at its end. -/
def substituted (bytes : List UInt8) : String :=
  textOf (bytes.reverse.dropWhile (· = 10)).reverse

/-- Runs a tool with its input; none if there is no such tool. -/
def runTool (s : Session) (name : String) (words : List String) (input : List UInt8) :
    Option (List UInt8 × Session) :=
  let wrote (bytes : List UInt8) : Option (List UInt8 × Session) := some (bytes, s.withStatus 0)
  let lines (l : List String) (separator : String) :=
    if l.isEmpty then wrote [] else wrote (bytesOf (separator.intercalate l ++ "\n"))
  let tested (l : List String) :=
    some ([], s.withStatus (if test (fun f => s.disk.exists? ⟨f⟩) l then 0 else 1))
  match name, words with
  | ":", _ | "true", _ | "sleep", _ => some ([], s.withStatus 0)
  | "false", _ => some ([], s.withStatus 1)
  | "exit", l => some ([], { s with
      status := ((l.head?.bind readNumber?).map fun n => (n.emod 256).toNat).getD s.status,
      isOver := true })
  | "echo", "-n" :: l => wrote (bytesOf (" ".intercalate l))
  | "echo", l => wrote (bytesOf (" ".intercalate l ++ "\n"))
  | "printf", pattern :: l => wrote (format (l.length + 1) pattern.toList l)
  | "cat", [] => wrote input
  | "cat", files =>
    let bytes := files.filterMap s.readFile
    some (bytes.flatten, s.withStatus (if bytes.length = files.length then 0 else 1))
  | "tr", ["-d", set] =>
    wrote (input.filter fun b => !(charSet set.toList).contains (Char.ofNat b.toNat))
  | "tr", [source, target] => wrote (translate source target input)
  | "wc", ["-l"] => lines [toString (input.count 10)] ""
  | "wc", ["-c"] => lines [toString input.length] ""
  | "seq", [last] => lines (numbers 1 ((readNumber? last).getD 0)) "\n"
  | "seq", ["-s,", first, last] =>
    lines (numbers ((readNumber? first).getD 1) ((readNumber? last).getD 0)) ","
  | "seq", [first, last] =>
    lines (numbers ((readNumber? first).getD 1) ((readNumber? last).getD 0)) "\n"
  | "rm", l =>
    let files := l.filter (!·.startsWith "-")
    some ([], s.act (files.forM fun f => Disk.Action.remove ⟨f⟩))
  | "cp", [source, target] =>
    match s.readFile source with
    | some bytes => some ([], s.writeFile false target bytes)
    | none => some ([], s.withStatus 1)
  | "mv", [source, target] =>
    match s.readFile source with
    | some bytes => some ([], (s.writeFile false target bytes).act (Disk.Action.remove ⟨source⟩))
    | none => some ([], s.withStatus 1)
  | "mkdir", l =>
    let dirs := (l.filter (!·.startsWith "-")).map Path.mk
    some ([], dirs.foldl Session.noteWritten (s.act (dirs.forM Disk.Action.makeDirs)))
  | "touch", [file] =>
    some ([], s.writeFile false file ((s.readFile file).getD []))
  | "test", l => tested l
  | "[", l => tested l.dropLast
  | _, _ => none

/-- Whether a text starts like a script for the shell. -/
def isShellScript (text : String) : Bool :=
  match text.toList with
  | '#' :: '!' :: rest =>
    (String.ofList ((rest.takeWhile (· ≠ '\n')).takeWhile (!·.isWhitespace))).endsWith "sh"
  | _ => false

/-- Splits an assignment into its name and the pieces of its value. -/
def assignment? (w : Word) : Option (String × Word) :=
  let rec scan (name : String) : Word → Option (String × Word)
    | .text "=" false :: rest => if name.isEmpty then none else some (name, rest)
    | .text t false :: rest =>
      if t.toList.all isNamePart then scan (name ++ t) rest else none
    | _ => none
  scan "" w

mutual

/-- The words that a word becomes. -/
def expand : Nat → Session → Making → Word → Making × Session
  | 0, s, m, _ => (m, s)
  | _, s, m, [] => (m, s)
  | fuel + 1, s, m, piece :: rest =>
    match piece with
    | .text t quoted => expand fuel s (if quoted || !t.isEmpty then m.add t else m) rest
    | .variable name cut quoted =>
      let value := s.value name
      let value := match cut with
        | some (how, pattern) => cutValue how pattern.toList value
        | none => value
      expand fuel s (m.addValue quoted value) rest
    | .output script quoted =>
      let (bytes, s) := runSteps fuel s [] (readScript script)
      expand fuel s (m.addValue quoted (substituted bytes)) rest
    | .sum expression =>
      let value := fun name => (readNumber? (s.value name)).getD 0
      expand fuel s (m.addValue false (toString (calculate value expression))) rest

/-- The words that words become. -/
def expandAll : Nat → Session → List Word → List String × Session
  | 0, s, _ => ([], s)
  | _, s, [] => ([], s)
  | fuel + 1, s, w :: rest =>
    let (m, s) := expand fuel s {} w
    let (more, s) := expandAll fuel s rest
    (m.words ++ more, s)

/-- Opens the streams of a command: its input, and the files for its output. -/
def openStreams : Nat → Session → List UInt8 → List Redirect →
    Option (List UInt8 × List (Bool × String)) × Session
  | 0, s, _, _ => (none, s)
  | _, s, input, [] => (some (input, []), s)
  | fuel + 1, s, input, r :: rest =>
    match r with
    | .input w =>
      let (m, s) := expand fuel s {} w
      match s.readFile (m.words.headD "") with
      | some bytes => openStreams fuel s bytes rest
      | none => (none, s.withStatus 1)
    | .output stream append w =>
      let (m, s) := expand fuel s {} w
      let file := m.words.headD ""
      if file = "/dev/null" ∨ stream = 2 then
        let (streams, s) := openStreams fuel s input rest
        (streams.map fun x => if stream = 2 then x else (x.1, (true, "/dev/null") :: x.2), s)
      else
        let s := s.writeFile append file []
        if s.status = 0 then
          let (streams, s) := openStreams fuel s input rest
          (streams.map fun x => (x.1, (append, file) :: x.2), s)
        else (none, s)

/-- Runs a command with its words. -/
def runWords : Nat → Session → List String → List UInt8 → List UInt8 × Session
  | 0, s, _, _ => ([], s)
  | _, s, [], _ => ([], s.withStatus 0)
  | fuel + 1, s, name :: words, input =>
    match runTool s name words input with
    | some r => r
    | none =>
      let script? := if name = "sh" then words.head? else if name.toList.contains '/' then some name else none
      match script?.bind fun f => (s.disk.readText ⟨f⟩).toOption with
      | none => ([], s.withStatus 127)
      | some text =>
        let arguments := if name = "sh" then words else name :: words
        let (bytes, inner) :=
          runSteps fuel { s with arguments, values := [] } input (readScript text)
        (bytes, { inner with arguments := s.arguments, values := s.values, isOver := false })

/-- Runs a command. -/
def runCommand : Nat → Session → List UInt8 → Command → List UInt8 × Session
  | 0, s, _, _ => ([], s)
  | fuel + 1, s, input, c =>
    match c.words, c.words.head?.bind assignment? with
    | [_], some (name, value) =>
      let (m, s) := expand fuel { s with status := 0 } {} value
      ([], { s with values := Entries.insert name (" ".intercalate m.words) s.values })
    | _, _ =>
      let (words, s) := expandAll fuel s c.words
      match openStreams fuel s input c.redirects with
      | (none, s) => ([], s)
      | (some (input, outputs), s) =>
        let (bytes, s) := runWords fuel s words input
        match outputs.getLast? with
        | none => (bytes, s)
        | some (append, file) =>
          if file = "/dev/null" then ([], s)
          else ([], { s.writeFile append file bytes with status := s.status })

/-- Runs the commands of a pipeline, each with the output of the one before it. -/
def runPipeline : Nat → Session → List UInt8 → List Command → List UInt8 × Session
  | 0, s, _, _ => ([], s)
  | _, s, input, [] => (input, s)
  | fuel + 1, s, input, c :: rest =>
    let (bytes, s) := runCommand fuel s input c
    runPipeline fuel s bytes rest

/-- Runs steps in order. -/
def runSteps : Nat → Session → List UInt8 → List Step → List UInt8 × Session
  | 0, s, _, _ => ([], s)
  | _, s, _, [] => ([], s)
  | fuel + 1, s, input, step :: rest =>
    if s.isOver then ([], s)
    else
      let runs := match step.link with
        | .always => true
        | .afterSuccess => s.status = 0
        | .afterFailure => s.status ≠ 0
      let (bytes, s) := if runs then runPipeline fuel s input step.commands else ([], s)
      let (more, s) := runSteps fuel s input rest
      (bytes ++ more, s)

end

/-- How deep commands may be nested and how many may follow each other. -/
def maxWork : Nat := 10000

/-- Starts a program with arguments, as a script would. A program that is not there cannot be
started. -/
def start (d : Disk) (name : String) (arguments : List String) :
    Except Disk.Fault Session := do
  let s : Session := { disk := d }
  if name.toList.contains '/' then
    match ← d.stat ⟨name⟩ with
    | (_, .file _ executable) =>
      if !executable then throw .denied
      let text ← d.readText ⟨name⟩
      if !text.startsWith "#!" then throw .notProgram
      if !isShellScript text then throw .notFound
      return (runWords maxWork s (name :: arguments) []).2
    | _ => throw .denied
  else if name = "sh" ∨ (runTool s name arguments []).isSome then
    return (runWords maxWork s (name :: arguments) []).2
  else throw .notFound

end Shell

end Scaffold
