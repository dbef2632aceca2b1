import Scaffold.Entries
import Scaffold.Stencil.Args
import Scaffold.Stencil.Tree

/-!
# The state of a run

A run keeps a stack of frames with local names, the namespaces, loops and macros that values
refer to, and what was printed so far. A frame in which a macro is declared shares a table
of names with the macro, so that the macro sees what is stored there later on.
-/

namespace Scaffold.Stencil

/-- What stays the same during a run. -/
structure Setting where
  /-- Whether looking something up in nothing gives nothing; it is a fault otherwise. -/
  lenient : Bool
  /-- The names that are there from the start. -/
  root : List (String × Value)
  blocks : List (String × List Stmt) := []

/-- What a frame falls back to for names it does not hold. -/
inductive Base where
  | nothing
  | root
  | table (id : Nat)

/-- Local names. -/
structure Frame where
  locals : Entries Value := []
  shared : Option Nat := none
  loop : Option Nat := none
  base : Base := .nothing

/-- A loop that is under way. -/
structure Loop where
  index : Nat := 0
  length : Nat
  depth : Nat
  previous : Value := .undefined
  upcoming : Value := .undefined
  changed : Option (List Value) := none
  /-- What a recursive loop does again for an inner list. -/
  again : Option (Target × List Stmt) := none

/-- A macro and the table of the frame that it was declared in. -/
structure Macro where
  name : String
  signature : Signature
  body : List Stmt
  shared : Nat
  usesCaller : Bool

/-- The state of a run. -/
structure Machine where
  frames : List Frame
  tables : Array (Entries Value) := #[]
  namespaces : Array (Entries Value) := #[]
  loops : Array Loop := #[]
  macros : Array Macro := #[]
  output : String := ""
  escapes : Bool := false
  outerDepth : Nat := 0

/-- A step of a run. -/
abbrev Run := StateT Machine (Except Fault)

namespace Machine

/-- How many frames may be on top of each other. -/
def maxDepth : Nat := 500

/-- The functions that are always there. -/
def functionNames : List String := ["range", "dict", "debug", "namespace"]

/-- What a frame knows under a name. -/
def frameValue? (setting : Setting) (m : Machine) (name : String) (f : Frame) : Option Value :=
  match Entries.get? name f.locals with
  | some v => some v
  | none =>
    match f.loop with
    | some id => if name = "loop" then some (.loopRef id) else base f
    | none => base f
where
  base (f : Frame) : Option Value :=
    match f.base with
    | .nothing => none
    | .root => (setting.root.find? (·.1 == name)).map (·.2)
    | .table id => (m.tables[id]?).bind (Entries.get? name)

/-- What a name stands for: the innermost frame that knows it counts. -/
def lookup? (setting : Setting) (m : Machine) (name : String) : Option Value :=
  match m.frames.findSome? (frameValue? setting m name) with
  | some v => some v
  | none => if functionNames.contains name then some (.function name) else none

/-- Stores a value under a name in the innermost frame. -/
def store (m : Machine) (name : String) (v : Value) : Machine :=
  match m.frames with
  | [] => m
  | f :: rest =>
    let tables := match f.shared with
      | some id => m.tables.modify id (Entries.insert name v)
      | none => m.tables
    { m with tables, frames := { f with locals := Entries.insert name v f.locals } :: rest }

/-- The innermost loop that is under way. -/
def innerLoop? (m : Machine) : Option Nat := m.frames.findSome? (·.loop)

/-- How deep the frames are on top of each other. -/
def depth (m : Machine) : Nat := m.outerDepth + m.frames.length

mutual

/-- A value with references replaced by what they stand for. -/
def settle (m : Machine) : Value → Value
  | .list l isLazy => .list (settleAll m l) isLazy
  | .map e => .map (settleEntries m e)
  | .named e => .named (settleNamed m e)
  | .group k l => .group (settle m k) (settleAll m l)
  | .namespaceRef id =>
    .map (((m.namespaces[id]?).getD []).map fun p => (Value.text p.1, p.2))
  | .loopRef id =>
    match m.loops[id]? with
    | some l => .function s!"<loop {l.index}/{l.length}>"
    | none => .undefined
  | .macroRef id =>
    match m.macros[id]? with
    | some d => .function s!"<macro {d.name}>"
    | none => .undefined
  | v => v

def settleAll (m : Machine) : List Value → List Value
  | [] => []
  | v :: rest => settle m v :: settleAll m rest

def settleEntries (m : Machine) : List (Value × Value) → List (Value × Value)
  | [] => []
  | (k, v) :: rest => (settle m k, settle m v) :: settleEntries m rest

def settleNamed (m : Machine) : List (String × Value) → List (String × Value)
  | [] => []
  | (k, v) :: rest => (k, settle m v) :: settleNamed m rest

end

/-- A value as filters, operators and printing see it. -/
def view (m : Machine) (v : Value) : Value :=
  if m.namespaces.isEmpty && m.loops.isEmpty && m.macros.isEmpty then v else m.settle v

/-- What a loop tells about itself. -/
def loopField? (l : Loop) : String → Option Value
  | "index0" => some (.int l.index)
  | "index" => some (.int (l.index + 1))
  | "length" => some (.int l.length)
  | "revindex" => some (.int (l.length - l.index))
  | "revindex0" => some (.int (l.length - l.index - 1))
  | "first" => some (.bool (l.index == 0))
  | "last" => some (.bool (l.length == 0 || l.index == l.length - 1))
  | "depth" => some (.int (l.depth + 1))
  | "depth0" => some (.int l.depth)
  | "previtem" => some l.previous
  | "nextitem" => some l.upcoming
  | _ => none

/-- What a macro tells about itself. -/
def macroField? (d : Macro) : String → Option Value
  | "name" => some (.text d.name)
  | "arguments" => some (.items (d.signature.params.map fun
    | .name n => .text n
    | _ => .text ""))
  | "caller" => some (.bool d.usesCaller)
  | _ => none

/-- The attribute of a value, if it has one of that name. -/
def attr? (m : Machine) (name : String) : Value → Option Value
  | .map e => Value.findKey (.text name) e
  | .named e => (e.find? (·.1 == name)).map (·.2)
  | .group k l => Value.groupField? k l name
  | .namespaceRef id => (m.namespaces[id]?).bind (Entries.get? name)
  | .loopRef id => (m.loops[id]?).bind fun l => loopField? l name
  | .macroRef id => (m.macros[id]?).bind fun d => macroField? d name
  | _ => none

/-- The item of a value under a key, if there is one. -/
def item? (m : Machine) (key : Value) : Value → Option Value
  | .namespaceRef id => key.asText?.bind fun name => m.attr? name (.namespaceRef id)
  | .loopRef id => key.asText?.bind fun name => m.attr? name (.loopRef id)
  | .macroRef id => key.asText?.bind fun name => m.attr? name (.macroRef id)
  | v => v.subscript? key

end Machine

end Scaffold.Stencil
