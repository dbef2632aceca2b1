/-!
# Scripts

A script is a list of pipelines, each of which runs after the one before it, only if that one
succeeded, or only if it failed. A word is made of pieces, some of which stand for a value;
only what is not quoted is split at blanks.
-/

namespace Scaffold.Shell

/-- How a value is cut where a pattern fits. -/
inductive Cut where
  | shortestStart
  | longestStart
  | shortestEnd
  | longestEnd
deriving DecidableEq, Repr

/-- A piece of a word. -/
inductive Piece where
  | text (text : String) (quoted : Bool)
  | variable (name : String) (cut : Option (Cut × String)) (quoted : Bool)
  /-- What a script writes. -/
  | output (script : String) (quoted : Bool)
  /-- The value of a calculation. -/
  | sum (expression : String)
deriving DecidableEq, Repr

/-- A word. -/
abbrev Word := List Piece

/-- Where a stream of a command goes or comes from. -/
inductive Redirect where
  | input (file : Word)
  | output (stream : Nat) (append : Bool) (file : Word)
deriving DecidableEq, Repr

/-- A command with its words and streams. -/
structure Command where
  words : List Word := []
  redirects : List Redirect := []
deriving DecidableEq, Repr, Inhabited

/-- When a pipeline runs. -/
inductive Link where
  | always
  | afterSuccess
  | afterFailure
deriving DecidableEq, Repr, Inhabited

/-- A pipeline and when it runs. -/
structure Step where
  link : Link
  commands : List Command
deriving DecidableEq, Repr, Inhabited

/-! ## Reading -/

/-- A token of a script. -/
inductive Token where
  | word (word : Word)
  | input
  | output (stream : Nat) (append : Bool)
  | link (link : Link)
  | pipe
deriving DecidableEq, Repr

/-- Whether a character ends a word. -/
def endsWord (c : Char) : Bool := " \t\n;&|<>()".toList.contains c

/-- Whether a character can stand in a name. -/
def isNamePart (c : Char) : Bool := c.isAlphanum || c = '_'

/-- Splits off what stands before the closing parenthesis of some open ones. -/
def untilClosed : Nat → List Char → List Char × List Char
  | _, [] => ([], [])
  | depth, ')' :: rest =>
    match depth with
    | 0 => ([], rest)
    | depth + 1 =>
      let (inside, after) := untilClosed depth rest
      (')' :: inside, after)
  | depth, c :: rest =>
    let (inside, after) := untilClosed (if c = '(' then depth + 1 else depth) rest
    (c :: inside, after)

/-- Reads what stands between braces: a name, and how its value is cut. -/
def bracedVariable (inside : List Char) (quoted : Bool) : Piece :=
  let isSign := inside = ['#']
  let name := if isSign then inside else inside.takeWhile fun c => c ≠ '#' ∧ c ≠ '%'
  let cut := match inside.drop name.length with
    | '#' :: '#' :: pattern => some (Cut.longestStart, String.ofList pattern)
    | '#' :: pattern => some (Cut.shortestStart, String.ofList pattern)
    | '%' :: '%' :: pattern => some (Cut.longestEnd, String.ofList pattern)
    | '%' :: pattern => some (Cut.shortestEnd, String.ofList pattern)
    | _ => none
  .variable (String.ofList name) cut quoted

/-- Reads what follows a dollar sign. -/
def dollar (quoted : Bool) : List Char → Piece × List Char
  | '(' :: '(' :: rest =>
    let (inside, after) := untilClosed 1 rest
    (.sum (String.ofList inside.dropLast), after)
  | '(' :: rest =>
    let (inside, after) := untilClosed 0 rest
    (.output (String.ofList inside) quoted, after)
  | '\x7b' :: rest =>
    (bracedVariable (rest.takeWhile (· ≠ '\x7d')) quoted, (rest.dropWhile (· ≠ '\x7d')).drop 1)
  | c :: rest =>
    if c.isDigit || "#?@*$".toList.contains c then
      (.variable (String.singleton c) none quoted, rest)
    else if isNamePart c then
      (.variable (String.ofList ((c :: rest).takeWhile isNamePart)) none quoted,
        (c :: rest).dropWhile isNamePart)
    else (.text "$" quoted, c :: rest)
  | [] => (.text "$" quoted, [])

/-- Reads pieces up to the closing double quote. -/
def doubleQuoted : Nat → List Char → List Piece × List Char
  | 0, rest => ([], rest)
  | _, [] => ([], [])
  | _ + 1, '"' :: rest => ([], rest)
  | fuel + 1, '$' :: rest =>
    let (piece, rest) := dollar true rest
    let (pieces, rest) := doubleQuoted fuel rest
    (piece :: pieces, rest)
  | fuel + 1, '\\' :: c :: rest =>
    let (pieces, after) := doubleQuoted fuel rest
    let text := if c = '\n' then "" else if "$\"\\".toList.contains c then String.singleton c
      else String.ofList ['\\', c]
    (.text text true :: pieces, after)
  | fuel + 1, c :: rest =>
    let (pieces, rest) := doubleQuoted fuel rest
    (.text (String.singleton c) true :: pieces, rest)

/-- Reads the pieces of a word. -/
def readWord : Nat → List Char → Word × List Char
  | 0, rest => ([], rest)
  | _, [] => ([], [])
  | fuel + 1, '\'' :: rest =>
    let (pieces, after) := readWord fuel ((rest.dropWhile (· ≠ '\'')).drop 1)
    (.text (String.ofList (rest.takeWhile (· ≠ '\''))) true :: pieces, after)
  | fuel + 1, '"' :: rest =>
    let (inside, rest) := doubleQuoted fuel rest
    let (pieces, rest) := readWord fuel rest
    (.text "" true :: inside ++ pieces, rest)
  | fuel + 1, '\\' :: c :: rest =>
    let (pieces, rest) := readWord fuel rest
    (.text (String.singleton c) true :: pieces, rest)
  | fuel + 1, '$' :: rest =>
    let (piece, rest) := dollar false rest
    let (pieces, rest) := readWord fuel rest
    (piece :: pieces, rest)
  | fuel + 1, c :: rest =>
    if endsWord c then ([], c :: rest)
    else
      let (pieces, rest) := readWord fuel rest
      (.text (String.singleton c) false :: pieces, rest)

/-- The tokens of a script. -/
def tokens : Nat → List Char → List Token
  | 0, _ => []
  | _, [] => []
  | fuel + 1, '&' :: '&' :: rest => .link .afterSuccess :: tokens fuel rest
  | fuel + 1, '|' :: '|' :: rest => .link .afterFailure :: tokens fuel rest
  | fuel + 1, '|' :: rest => .pipe :: tokens fuel rest
  | fuel + 1, '>' :: '>' :: rest => .output 1 true :: tokens fuel rest
  | fuel + 1, '>' :: rest => .output 1 false :: tokens fuel rest
  | fuel + 1, '<' :: rest => .input :: tokens fuel rest
  | fuel + 1, c :: rest =>
    if c = '\n' ∨ c = ';' then .link .always :: tokens fuel rest
    else if c = ' ' ∨ c = '\t' ∨ c = '&' ∨ c = '(' ∨ c = ')' then tokens fuel rest
    else if c = '#' then tokens fuel (rest.dropWhile (· ≠ '\n'))
    else
      match c, rest with
      | '2', '>' :: '>' :: rest => .output 2 true :: tokens fuel rest
      | '2', '>' :: rest => .output 2 false :: tokens fuel rest
      | _, _ =>
        let (word, rest) := readWord (rest.length + 1) (c :: rest)
        .word word :: tokens fuel rest

/-- Adds a token to the steps so far, last one first; each has its last command first. -/
def addToken (steps : List Step) : List Token → List Step
  | [] => steps
  | t :: rest =>
    let withCommand (f : Command → Command) : List Step :=
      match steps with
      | [] => [⟨.always, [f {}]⟩]
      | s :: before =>
        match s.commands with
        | [] => { s with commands := [f {}] } :: before
        | c :: more => { s with commands := f c :: more } :: before
    match t with
    | .word w => addToken (withCommand fun c => { c with words := c.words ++ [w] }) rest
    | .link l => addToken (⟨l, []⟩ :: steps) rest
    | .pipe =>
      match steps with
      | s :: before => addToken ({ s with commands := {} :: s.commands } :: before) rest
      | [] => addToken steps rest
    | .input =>
      match rest with
      | .word w :: rest =>
        addToken (withCommand fun c => { c with redirects := c.redirects ++ [.input w] }) rest
      | _ => steps
    | .output n a =>
      match rest with
      | .word w :: rest =>
        addToken (withCommand fun c => { c with redirects := c.redirects ++ [.output n a w] }) rest
      | _ => steps

/-- Reads a script. -/
def readScript (text : String) : List Step :=
  let steps := (addToken [] (tokens text.length text.toList)).reverse
  (steps.filter (!·.commands.isEmpty)).map fun s => { s with commands := s.commands.reverse }

end Scaffold.Shell
