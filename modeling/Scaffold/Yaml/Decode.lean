import Scaffold.Yaml.Value

/-!
# Decoding

A record, a list or a variant is decoded from a `Source`: a node of a text, which knows its
place, or a value that was read before. Both give a record as its entries in order, so what a
record means is written once.

Of two mistakes in a record the one that stands first counts; a missing field counts last.
-/

namespace Scaffold.Yaml

/-- What can be decoded. -/
class Source (σ : Type) where
  /-- What stands here, whatever it should be. -/
  value : σ → Except Fault Value
  /-- The entries of what should be described by some words. -/
  entries : String → σ → Except Fault (List (σ × σ))
  /-- The value of an entry, in the place that its key gives it. -/
  under : σ → σ × σ → σ
  /-- A text, or some words for what should have been there. -/
  text : String → σ → Except Fault String
  items : σ → Except Fault (List σ)
  flag : σ → Except Fault Bool
  /-- A whole number that an unsigned word of 64 bits holds. -/
  count : σ → Except Fault Nat
  /-- The name of a variant, and whether it has no content. -/
  variant : σ → Except Fault (String × Except Fault Unit)
  /-- Goes over a value that nobody asks for. -/
  skip : σ → Except Fault Unit
  /-- Notes this place in a fault that has none. -/
  locate {α : Type} : σ → Except Fault α → Except Fault α

namespace Source

variable {σ α ρ : Type} [Source σ]

/-- How one field changes the record read so far. -/
abbrev Field (σ ρ : Type) := ρ → σ → Except Fault ρ

/-- A field that is read by `decode` and stored by `store`. -/
def field (decode : σ → Except Fault α) (store : ρ → α → ρ) : Option (Field σ ρ) :=
  some fun r s => return store r (← decode s)

/-- Reads the entries of a record and the names of its fields. A name without a field is
skipped, and no field stands there twice. -/
def fields (s : σ) (known : String → Option (Field σ ρ)) :
    List (σ × σ) → List String → ρ → Except Fault (ρ × List String)
  | [], seen, r => .ok (r, seen)
  | e :: rest, seen, r => do
    let name ← text "field identifier" e.1
    match known name with
    | some read =>
      if seen.contains name then mismatch s!"duplicate field `{name}`"
      else fields s known rest (name :: seen) (← read r (under s e))
    | none =>
      skip (under s e)
      fields s known rest seen r

/-- Reads a record of some name, in which some fields have to stand. -/
def record (name : String) (needed : List String) (known : String → Option (Field σ ρ))
    (start : ρ) (s : σ) : Except Fault ρ :=
  locate s do
    let (r, seen) ← fields s known (← entries s!"struct {name}" s) [] start
    match needed.find? (!seen.contains ·) with
    | some missing => mismatch s!"missing field `{missing}`"
    | none => return r

/-- Reads a list. -/
def list (decode : σ → Except Fault α) (s : σ) : Except Fault (List α) :=
  locate s do (← items s).mapM decode

/-- Reads the name of a variant without content. -/
def choice (names : List (String × α)) (s : σ) : Except Fault α :=
  locate s do
    let (name, content) ← variant s
    match names.find? (·.1 == name) with
    | some (_, a) =>
      content
      return a
    | none =>
      let expected := ", ".intercalate (names.map fun n => s!"`{n.1}`")
      mismatch s!"unknown variant `{name}`, expected one of {expected}"

/-- Reads values by name. -/
def table (s : σ) : Except Fault (List (String × Value)) :=
  locate s do
    (← entries "a map" s).mapM fun e => do
      let name ← text "a string" e.1
      return (name, ← value (under s e))

/-- The text that any scalar stands for. -/
def lenientText (s : σ) : Except Fault String := do (← value s).lenientText

/-- The texts that a list of scalars stands for. -/
def lenientTexts (s : σ) : Except Fault (List String) := do (← value s).lenientTexts

end Source

/-- A value of the wrong kind. -/
def wrongKind {α : Type} (found expected : String) : Except Fault α :=
  mismatch s!"invalid type: {found}, expected {expected}"

end Scaffold.Yaml
