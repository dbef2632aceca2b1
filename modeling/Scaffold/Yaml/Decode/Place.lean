import Scaffold.Yaml.Decode
import Scaffold.Yaml.Node.Reader
import Scaffold.Yaml.Node.Unfold

/-!
# Decoding nodes

A node is decoded together with its path: the names and numbers that lead to it from the root.
The faults of a text come in the order in which it is read: what stands before the place where
it turns out to be malformed is decoded first.
-/

namespace Scaffold.Yaml

/-- A node without copies, and the path to it. -/
structure Place where
  node : Node
  path : String

namespace Place

/-- The path to the root. -/
def rootPath : String := "."

/-- The path to the value under a key. -/
def keyPath (path : String) (key : Node) : String :=
  let start := if path = rootPath then "" else path ++ "."
  match key with
  | .scalar _ _ text => start ++ text
  | _ => start ++ "?"

/-- The path to an item. -/
def itemPath (path : String) (index : Nat) : String := s!"{path}[{index}]"

/-- The name of the variant that a tag stands for. -/
def variantTag? (tag : Option String) : Option String :=
  match tag with
  | some t =>
    if t = "!" then some t
    else if t.startsWith "!" then some (t.drop 1).toString
    else none
  | none => none

/-- A scalar as a value. -/
def scalarValue : Scalar → Except Fault Value
  | .null => .ok .null
  | .bool b => .ok (.bool b)
  | .int n => .ok (.int n)
  | .wide n => wrongKind (Scalar.wide n).describe "any YAML value"
  | .float x => .ok (.float x)
  | .text t => .ok (.str t)

/-- A value, in a variant if there is one. -/
def withVariant (tag : Option String) (v : Value) : Value :=
  match variantTag? tag with
  | some t => .tagged t v
  | none => v

mutual

/-- What a node stands for, whatever it should be. -/
def valueOf (path : String) : Node → Except Fault Value
  | .scalar tag style text =>
    let tag' := if (variantTag? tag).isSome then none else tag
    match Scalar.ofTagged tag' style text >>= scalarValue with
    | .ok v => .ok (withVariant tag v)
    | .error f => .error (f.at_ path)
  | .sequence tag items =>
    match itemsFrom path 0 items with
    | .ok l => .ok (withVariant tag (.seq l))
    | .error f => .error (f.at_ path)
  | .mapping tag entries =>
    match entriesFrom path entries [] with
    | .ok l => .ok (withVariant tag (.map l))
    | .error f => .error (f.at_ path)
  | .alias _ => .error .unknownAnchor
  | .void => .ok .null
  | .broken f => .error f

def itemsFrom (path : String) (index : Nat) : List Node → Except Fault (List Value)
  | [] => .ok []
  | n :: rest => do
    let v ← valueOf (itemPath path index) n
    return v :: (← itemsFrom path (index + 1) rest)

/-- The entries of a mapping after those that were read already. -/
def entriesFrom (path : String) :
    List (Node × Node) → List (Value × Value) → Except Fault (List (Value × Value))
  | [], before => .ok before.reverse
  | (k, v) :: rest, before => do
    let key ← valueOf path k
    if before.any (key.same ·.1) then mismatch key.duplicateMessage
    else
      let value ← valueOf (keyPath path k) v
      entriesFrom path rest ((key, value) :: before)

end

mutual

/-- Where the text is malformed inside of a node. -/
def faultIn : Node → Except Fault Unit
  | .broken f => if f = .tooDeep ∨ f = .tooManyCopies then .ok () else .error f
  | .sequence _ items => faultInItems items
  | .mapping _ entries => faultInEntries entries
  | _ => .ok ()

def faultInItems : List Node → Except Fault Unit
  | [] => .ok ()
  | n :: rest => do
    faultIn n
    faultInItems rest

def faultInEntries : List (Node × Node) → Except Fault Unit
  | [] => .ok ()
  | (k, v) :: rest => do
    faultIn k
    faultIn v
    faultInEntries rest

end

/-- The fault of a node that is not what it should be. -/
def refuse {α : Type} (expected : String) : Node → Except Fault α
  | .scalar tag style text => do
    wrongKind (← Scalar.ofTagged tag style text).describe expected
  | .sequence .. => wrongKind "sequence" expected
  | .mapping .. => wrongKind "map" expected
  | .alias _ => .error .unknownAnchor
  | .void => .error .endOfText
  | .broken f => .error f

/-- Whether a node is written as nothing at all. -/
def isEmpty : Node → Bool
  | .scalar _ style text => style = .plain && text.isEmpty
  | .void => true
  | _ => false

/-- Whether a scalar may stand for something else than a text: a plain one, or a block with a
tag of the core schema. -/
def isLiteral (kind : String) (tag : Option String) (style : Style) : Bool :=
  style = .plain || (style = .literal && tag = some (Scalar.coreSchema ++ kind))

/-- What a scalar stands for that `read` understands. -/
def readScalar {α : Type} (kind expected : String) (read : String → Option α) (n : Node) :
    Except Fault α :=
  match n with
  | .scalar tag style text =>
    match (if isLiteral kind tag style then read text else none) with
    | some a => .ok a
    | none => refuse expected n
  | _ => refuse expected n

/-- Reads a number without a minus sign. -/
def readCount? (text : String) : Option Nat :=
  if text.startsWith "-" then none
  else ((Scalar.readInt? text).map Int.toNat).filter (· < Decimal.pow2 64)

/-- Whether nothing stands after the tag of a variant. -/
def noContent (n : Node) : Except Fault Unit :=
  match n with
  | .scalar _ .plain text =>
    if text.isEmpty || Scalar.isNullWord text then .ok ()
    else mismatch s!"invalid value: string {Text.quote text}, expected null"
  | n => refuse "unit" n

/-- The name of a variant: a tag, or a scalar as it is written. -/
def variantOf (n : Node) : Except Fault (String × Except Fault Unit) :=
  let untagged (found : String) : Except Fault (String × Except Fault Unit) :=
    wrongKind found "a YAML tag starting with '!'"
  match n with
  | .scalar tag _ text =>
    match variantTag? tag with
    | some t => .ok (t, noContent n)
    | none => .ok (text, .ok ())
  | .sequence tag _ =>
    match variantTag? tag with
    | some t => .ok (t, noContent n)
    | none => untagged "sequence"
  | .mapping tag _ =>
    match variantTag? tag with
    | some t => .ok (t, noContent n)
    | none => untagged "map"
  | n => refuse "" n

instance : Source Place where
  value p := valueOf p.path p.node
  entries expected p :=
    match p.node with
    | .mapping _ entries => .ok (entries.map fun e => (⟨e.1, p.path⟩, ⟨e.2, p.path⟩))
    | n => if isEmpty n then .ok [] else refuse expected n
  under p e := ⟨e.2.node, keyPath p.path e.1.node⟩
  text expected p :=
    match p.node with
    | .scalar _ _ text => .ok text
    | n => (refuse expected n).mapError (·.at_ p.path)
  items p :=
    match p.node with
    | .sequence _ items => .ok (items.zipIdx.map fun i => ⟨i.1, itemPath p.path i.2⟩)
    | n => if isEmpty n then .ok [] else refuse "a sequence" n
  flag p := (readScalar "bool" "a boolean" Scalar.readBool? p.node).mapError (·.at_ p.path)
  count p := (readScalar "int" "usize" readCount? p.node).mapError (·.at_ p.path)
  variant p := variantOf p.node
  skip p := faultIn p.node
  locate p r := r.mapError (·.at_ p.path)

end Place

/-- Decodes the only document of a text. -/
def decodeText {α : Type} (decode : Place → Except Fault α) (text : String) :
    Except Fault α := do
  let d := Document.ofText text
  let a ← decode ⟨d.unfolded, Place.rootPath⟩
  match d.rest with
  | some f => .error f
  | none => return a

end Scaffold.Yaml
