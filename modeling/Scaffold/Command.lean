/-!
# Commands

The command line has one command, `new project`, with a directory and a template. Arguments
are read from left to right. An option may have its value attached or as the next argument,
and is only looked at again when the argument after its value comes; so of two mistakes it is
not always the first one that is told.
-/

namespace Scaffold

/-- What `new project` is asked to do. -/
structure NewProject where
  directory : String := "."
  template : String := "empty"
deriving DecidableEq, Repr, Inhabited

namespace Command

/-- Why arguments are no command: a page is asked for, or they make no sense. -/
inductive Refusal where
  | helpPage
  | versionPage
  /-- A command has to be followed by one of its own commands. -/
  | missingCommand
  | unknownCommand
  | unknownArgument
  | invalidValue
  | repeatedOption
  /-- A switch takes no value. -/
  | attachedValue
deriving DecidableEq, Repr

/-- Whether a refusal is what was asked for. -/
def Refusal.isPage : Refusal → Bool
  | helpPage | versionPage => true
  | _ => false

/-! ## Switches -/

/-- What an argument is by its looks. -/
inductive Shape where
  /-- Two dashes: everything after them is a value. -/
  | escape
  | long (name : String) (attached : Option String)
  | short (name : Char) (rest : List Char)
  | value
deriving DecidableEq, Repr

/-- The shape of an argument. A single dash is a value. -/
def shape (arg : String) : Shape :=
  match arg.toList with
  | ['-', '-'] => .escape
  | '-' :: '-' :: rest =>
    let name := rest.takeWhile (· ≠ '=')
    .long (String.ofList name)
      (if name.length < rest.length then some (String.ofList (rest.drop (name.length + 1))) else none)
  | '-' :: c :: rest => .short c rest
  | _ => .value

/-- What comes of a switch that asks for a page; a version is only known to some commands. -/
def page (hasVersion : Bool) : Shape → Option Refusal
  | .long name attached =>
    let refusal? := if name = "help" then some .helpPage
      else if name = "version" ∧ hasVersion then some .versionPage else none
    refusal?.map fun r => if attached.isSome then .attachedValue else r
  | .short c _ =>
    if c = 'h' then some .helpPage else if c = 'V' ∧ hasVersion then some .versionPage else none
  | _ => none

/-! ## The arguments of `new project` -/

/-- A value that was not looked at yet. -/
inductive Pending where
  | directory (value : String)
  | template (value : Option String)
deriving DecidableEq, Repr

/-- What was read so far. -/
structure Progress where
  directory : Option String := none
  template : Option String := none
  pending : Option Pending := none
deriving DecidableEq, Repr

namespace Progress

/-- Takes the template, which may be given once. -/
def withTemplate (p : Progress) (value : String) : Except Refusal Progress :=
  if p.template.isSome then .error .repeatedOption
  else .ok { p with template := some value, pending := none }

/-- Looks at the value that was not looked at yet. -/
def settle (p : Progress) : Except Refusal Progress :=
  match p.pending with
  | none => .ok p
  | some (.directory "") => .error .invalidValue
  | some (.directory d) => .ok { p with directory := some d, pending := none }
  | some (.template none) => .error .invalidValue
  | some (.template (some t)) => p.withTemplate t

/-- Takes an argument that stands for itself. -/
def positional (p : Progress) (arg : String) : Except Refusal Progress :=
  match p.pending, p.directory with
  | some (.directory _), _ | _, some _ => .error .unknownArgument
  | _, none => return { ← p.settle with pending := some (.directory arg) }

/-- Takes the template option, with a value if one is attached. -/
def option (p : Progress) (attached : Option String) : Except Refusal Progress := do
  let p ← p.settle
  match attached with
  | some v => p.withTemplate v
  | none => return { p with pending := some (.template none) }

/-- The value that is attached to a short option. -/
def attachedTo (rest : List Char) : Option String :=
  match rest with
  | [] => none
  | '=' :: value => some (String.ofList value)
  | value => some (String.ofList value)

/-- Takes one argument; the flag says whether everything is a value from now on. -/
def argument (p : Progress) (arg : String) : Except Refusal (Progress × Bool) :=
  let s := shape arg
  match page false s with
  | some refusal =>
    if refusal = .attachedValue then .error refusal
    else do
      let _ ← p.settle
      .error refusal
  | none =>
    match s with
    | .escape => .ok (p, true)
    | .long name attached =>
      if name = "template" then return (← p.option attached, false) else .error .unknownArgument
    | .short c rest =>
      if c = 't' then return (← p.option (attachedTo rest), false) else .error .unknownArgument
    | .value =>
      if p.pending = some (.template none) then
        .ok ({ p with pending := some (.template (some arg)) }, false)
      else return (← p.positional arg, false)

/-- Takes the rest of the arguments. -/
def arguments (p : Progress) (onlyValues : Bool) : List String → Except Refusal Progress
  | [] => p.settle
  | arg :: rest => do
    if onlyValues then arguments (← p.positional arg) true rest
    else
      let (p, onlyValues) ← p.argument arg
      arguments p onlyValues rest

end Progress

/-- Reads the arguments of `new project`. -/
def projectArguments (args : List String) : Except Refusal NewProject := do
  let p ← Progress.arguments {} false args
  let defaults : NewProject := {}
  return { directory := p.directory.getD defaults.directory,
           template := p.template.getD defaults.template }

/-! ## Commands and their commands -/

/-- A command that stands before `project`: its own commands by name. -/
inductive Menu where
  | menu (entries : List (String × Menu))

/-- The commands of the program. -/
def menu : Menu := .menu [("new", .menu [("project", .menu [])])]

/-- What comes of the help command: its arguments have to be commands. -/
def help : Menu → List String → Refusal
  | _, [] => .helpPage
  | .menu entries, name :: rest =>
    match entries with
    | [(known, inner)] =>
      if name = known then help inner rest
      else if name = "help" then .helpPage
      else .unknownCommand
    | _ => .unknownCommand

/-- Reads the arguments of a command that has one command of its own. -/
def chooseCommand (name : String) (menu : Menu) (hasVersion : Bool)
    (next : List String → Except Refusal NewProject) (args : List String) :
    Except Refusal NewProject :=
  match args with
  | [] => .error .missingCommand
  | arg :: rest =>
    if arg = name then next rest
    else if arg = "help" then .error (help menu rest)
    else
      match shape arg with
      | .escape =>
        match rest with
        | [] => .error .missingCommand
        | value :: _ =>
          .error (if value = name ∨ value = "help" then .unknownArgument else .unknownCommand)
      | .value => .error .unknownCommand
      | s => .error ((page hasVersion s).getD .unknownArgument)

/-- Reads a command line. -/
def parse (args : List String) : Except Refusal NewProject :=
  chooseCommand "new" menu true
    (chooseCommand "project" (.menu [("project", .menu [])]) false projectArguments) args

end Command

end Scaffold
