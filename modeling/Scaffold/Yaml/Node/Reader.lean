import Scaffold.Yaml.Node
import Scaffold.Yaml.Token.Lexer

/-!
# From tokens to nodes

`Document.ofText` reads the first document of a text. A reader that cannot go on leaves a
broken node and notes the fault, and nothing is read after it. All readers count `fuel` down,
which is more than the number of tokens allows to use up.
-/

namespace Scaffold.Yaml

/-- The state of reading nodes. -/
structure Builder where
  /-- The tokens to be read; the text is malformed after them unless the last one is the end
  of the stream. -/
  tokens : List Token
  handles : List (String × String) := []
  names : List (String × Nat) := []
  anchored : List (Nat × Node) := []
  nextId : Nat := 0
  events : Nat := 0
  fault : Option Fault := none

/-- A step of reading nodes. -/
abbrev Build := StateM Builder

namespace Build

/-- The next token, which stays; none where the text is malformed. -/
def peek : Build (Option Token) := return (← get).tokens.head?

/-- Goes over a token. -/
def skip : Build Unit := modify fun b => { b with tokens := b.tokens.drop 1 }

/-- Stops reading. -/
def stop (f : Fault) : Build Node := do
  modify fun b => { b with fault := some f }
  return .broken f

/-- Whether reading has stopped. -/
def stopped : Build Bool := return (← get).fault.isSome

/-- Counts events. -/
def count (n : Nat) : Build Unit := modify fun b => { b with events := b.events + n }

/-- The scalar that stands for nothing. -/
def emptyScalar : Build Node := do
  count 1
  return .scalar none .plain ""

/-- Gives a number to an anchored node that is about to be read. -/
def noteAnchor : Option String → Build (Option Nat)
  | none => return none
  | some name => do
    let id := (← get).nextId
    modify fun b => { b with nextId := id + 1, names := (name, id) :: b.names }
    return some id

/-- Keeps an anchored node for its copies. -/
def keepAnchored (id : Option Nat) (n : Node) : Build Node := do
  match id with
  | some id => modify fun b => { b with anchored := (id, n) :: b.anchored }
  | none => pure ()
  return n

/-- The handles that are known everywhere. -/
def standardHandles : List (String × String) := [("!", "!"), ("!!", "tag:yaml.org,2002:")]

/-- The full name of a tag; none for an unknown handle. -/
def fullTag? (handles : List (String × String)) (handle suffix : String) : Option String :=
  if handle.isEmpty then some suffix
  else ((handles ++ standardHandles).find? (·.1 == handle)).map (·.2 ++ suffix)

/-- The anchor and tag before a node. -/
structure Properties where
  anchor : Option String := none
  tag : Option (String × String) := none

/-- Reads an anchor and a tag in either order. -/
def properties : Build Properties := do
  match ← peek with
  | some (.anchor name) =>
    skip
    match ← peek with
    | some (.tag handle suffix) =>
      skip
      return { anchor := some name, tag := some (handle, suffix) }
    | _ => return { anchor := some name }
  | some (.tag handle suffix) =>
    skip
    match ← peek with
    | some (.anchor name) =>
      skip
      return { anchor := some name, tag := some (handle, suffix) }
    | _ => return { tag := some (handle, suffix) }
  | _ => return {}

/-- Whether one of some tokens is next. -/
def nextIs (p : Token → Bool) : Build Bool := return (← peek).any p

/-- Whether the text is malformed right here. -/
def isCut : Build Bool := return (← peek).isNone

mutual

/-- Reads a node. `block` allows block collections, and `dashes` sequences without an
indentation of their own. -/
def node : Nat → Bool → Bool → Build Node
  | 0, _, _ => stop .malformed
  | fuel + 1, block, dashes => do
    match ← peek with
    | none => stop .malformed
    | some (.alias name) =>
      skip
      match (← get).names.find? (·.1 == name) with
      | some (_, id) =>
        count 1
        return .alias id
      | none => stop .unknownAnchor
    | some _ =>
      let p ← properties
      if ← isCut then return ← stop .malformed
      let handles := (← get).handles
      let tag? : Option (Option String) := match p.tag with
        | none => some none
        | some (handle, suffix) => (fullTag? handles handle suffix).map some
      match tag? with
      | none => stop .malformed
      | some tag =>
        let tag := tag.filter (!·.isEmpty)
        match ← peek with
        | some .blockEntry =>
          if dashes then
            let id ← noteAnchor p.anchor
            count 2
            let items ← dashItems fuel
            keepAnchored id (.sequence tag items)
          else bare p tag
        | some (.scalar value style) =>
          skip
          let id ← noteAnchor p.anchor
          count 1
          keepAnchored id (.scalar tag style value)
        | some .flowSequenceStart =>
          skip
          let id ← noteAnchor p.anchor
          count 2
          let items ← flowItems fuel true
          keepAnchored id (.sequence tag items)
        | some .flowMappingStart =>
          skip
          let id ← noteAnchor p.anchor
          count 2
          let entries ← flowEntries fuel true
          keepAnchored id (.mapping tag entries)
        | some .blockSequenceStart =>
          if block then
            skip
            let id ← noteAnchor p.anchor
            count 2
            let items ← blockItems fuel
            keepAnchored id (.sequence tag items)
          else bare p tag
        | some .blockMappingStart =>
          if block then
            skip
            let id ← noteAnchor p.anchor
            count 2
            let entries ← blockEntries fuel
            keepAnchored id (.mapping tag entries)
          else bare p tag
        | _ => bare p tag

/-- A node that is only an anchor or a tag. -/
def bare (p : Properties) (tag : Option String) : Build Node := do
  if p.anchor.isSome || p.tag.isSome then
    let id ← noteAnchor p.anchor
    count 1
    keepAnchored id (.scalar tag .plain "")
  else stop .malformed

/-- Reads a node unless one of some tokens is next, which stand for an empty one. -/
def nodeUnless : Nat → Bool → Bool → (Token → Bool) → Build Node
  | 0, _, _, _ => stop .malformed
  | fuel + 1, block, dashes, ends => do
    if ← isCut then stop .malformed
    else if ← nextIs ends then emptyScalar
    else node fuel block dashes

/-- Reads the items of a block sequence. -/
def blockItems : Nat → Build (List Node)
  | 0 => return [← stop .malformed]
  | fuel + 1 => do
    match ← peek with
    | some .blockEntry =>
      skip
      let n ← nodeUnless fuel true false (fun t => t = .blockEntry || t = .blockEnd)
      if ← stopped then return [n]
      return n :: (← blockItems fuel)
    | some .blockEnd =>
      skip
      return []
    | _ => return [← stop .malformed]

/-- Reads the items of a block sequence without an indentation of its own. -/
def dashItems : Nat → Build (List Node)
  | 0 => return [← stop .malformed]
  | fuel + 1 => do
    match ← peek with
    | some .blockEntry =>
      skip
      let n ← nodeUnless fuel true false
        (fun t => t = .blockEntry || t = .key || t = .value || t = .blockEnd)
      if ← stopped then return [n]
      return n :: (← dashItems fuel)
    | some _ => return []
    | none => return [← stop .malformed]

/-- Reads the entries of a block mapping. -/
def blockEntries : Nat → Build (List (Node × Node))
  | 0 => return [(← stop .malformed, .void)]
  | fuel + 1 => do
    let ends (t : Token) : Bool := t = .key || t = .value || t = .blockEnd
    match ← peek with
    | some .key =>
      skip
      let k ← nodeUnless fuel true true ends
      if ← stopped then return [(k, .void)]
      let v ← match ← peek with
        | none => stop .malformed
        | some .value => do
          skip
          nodeUnless fuel true true ends
        | some _ => emptyScalar
      if ← stopped then return [(k, v)]
      return (k, v) :: (← blockEntries fuel)
    | some .blockEnd =>
      skip
      return []
    | _ => return [(← stop .malformed, .void)]

/-- Reads the items of a flow sequence; one may be a single entry of a mapping. -/
def flowItems : Nat → Bool → Build (List Node)
  | 0, _ => return [← stop .malformed]
  | fuel + 1, isFirst => do
    match ← peek with
    | some .flowSequenceEnd =>
      skip
      return []
    | none => return [← stop .malformed]
    | some t =>
      if !isFirst then
        if t = .flowEntry then skip
        else return [← stop .malformed]
      match ← peek with
      | none => return [← stop .malformed]
      | some .flowSequenceEnd =>
        skip
        return []
      | some .key =>
        skip
        count 2
        let k ←
          if ← isCut then stop .malformed
          else if ← nextIs (fun t => t = .value || t = .flowEntry || t = .flowSequenceEnd) then do
            skip
            emptyScalar
          else node fuel false false
        if ← stopped then return [.mapping none [(k, .void)]]
        let v ← flowValue fuel .flowSequenceEnd
        if ← stopped then return [.mapping none [(k, v)]]
        return .mapping none [(k, v)] :: (← flowItems fuel false)
      | some _ =>
        let n ← node fuel false false
        if ← stopped then return [n]
        return n :: (← flowItems fuel false)

/-- Reads a value after a colon, or nothing. -/
def flowValue : Nat → Token → Build Node
  | 0, _ => stop .malformed
  | fuel + 1, close => do
    match ← peek with
    | none => stop .malformed
    | some .value =>
      skip
      nodeUnless fuel false false (fun t => t = .flowEntry || t = close)
    | some _ => emptyScalar

/-- Reads the entries of a flow mapping. -/
def flowEntries : Nat → Bool → Build (List (Node × Node))
  | 0, _ => return [(← stop .malformed, .void)]
  | fuel + 1, isFirst => do
    match ← peek with
    | some .flowMappingEnd =>
      skip
      return []
    | none => return [(← stop .malformed, .void)]
    | some t =>
      if !isFirst then
        if t = .flowEntry then skip
        else return [(← stop .malformed, .void)]
      match ← peek with
      | none => return [(← stop .malformed, .void)]
      | some .flowMappingEnd =>
        skip
        return []
      | some .key =>
        skip
        let k ← nodeUnless fuel false false
          (fun t => t = .value || t = .flowEntry || t = .flowMappingEnd)
        if ← stopped then return [(k, .void)]
        let v ← flowValue fuel .flowMappingEnd
        if ← stopped then return [(k, v)]
        return (k, v) :: (← flowEntries fuel false)
      | some _ =>
        let k ← node fuel false false
        if ← stopped then return [(k, .void)]
        let v ← emptyScalar
        return (k, v) :: (← flowEntries fuel false)

end

/-- Reads the directives before a document; false if they contradict each other. -/
def directives : Nat → Bool → Build Bool
  | 0, _ => return false
  | fuel + 1, hasVersion => do
    match ← peek with
    | some (.versionDirective major minor) =>
      if hasVersion || major ≠ 1 || (minor ≠ 1 && minor ≠ 2) then return false
      skip
      directives fuel true
    | some (.tagDirective handle lead) =>
      if (← get).handles.any (·.1 == handle) then return false
      modify fun b => { b with handles := (handle, lead) :: b.handles }
      skip
      directives fuel hasVersion
    | _ => return true

/-- Reads the root of a document that starts with a mark. -/
def markedRoot (fuel : Nat) : Build Node := do
  if !(← directives fuel false) then return ← stop .malformed
  match ← peek with
  | some .documentStart =>
    skip
    nodeUnless fuel true false fun
      | .versionDirective .. | .tagDirective .. | .documentStart | .documentEnd | .streamEnd => true
      | _ => false
  | _ => stop .malformed

/-- Reads the first document, and what is wrong after it. -/
def document (fuel : Nat) : Build (Node × Option Fault) := do
  match ← peek with
  | none => return (.broken .malformed, some .malformed)
  | some .streamEnd => return (.void, none)
  | some t =>
    let root ← match t with
      | .versionDirective .. | .tagDirective .. | .documentStart => markedRoot fuel
      | _ => node fuel true false
    if let some f := (← get).fault then return (root, some f)
    if ← isCut then return (root, some .malformed)
    modify fun b => { b with tokens := b.tokens.dropWhile (· = .documentEnd) }
    if ← nextIs (· = .streamEnd) then return (root, none)
    return (root, some .severalDocuments)

end Build

/-- Reads the first document of a text. -/
def Document.ofText (text : String) : Document :=
  let (tokens, _) := Token.scan text.toList
  let ((root, rest), b) :=
    (Build.document (4 * tokens.length + 16)).run { tokens }
  ⟨root, b.anchored, b.events, rest⟩

end Scaffold.Yaml
