import Scaffold.Gate
import Scaffold.Question.Decode

/-!
# Manifests

A manifest says what a template is: its name, the questions to ask, the files to copy and the
files to fill. `Manifest.ofText` decodes one and checks what decoding does not: every question
has a name of its own, and every fill rule has a file.
-/

namespace Scaffold

open Yaml Source

/-- A rule that copies a file or a directory of the template into the project. -/
structure CopyRule where
  source : String := ""
  /-- Where the copy goes; the empty text stands for the source's own path. -/
  target : String := ""
  gate : String := ""
deriving DecidableEq, Repr, Inhabited

/-- Where the copy goes in the project. -/
def CopyRule.destination (r : CopyRule) : String :=
  if r.target.isEmpty then r.source else r.target

/-- A rule that renders a file of the project in place. -/
structure FillRule where
  file : String := ""
  gate : String := ""
  /-- The files that should be filled before; nothing depends on it. -/
  needs : List String := []
  /-- Values that only this rule can see. -/
  vars : Entries Yaml.Value := []
deriving Inhabited

/-- A manifest. -/
structure Manifest where
  name : String := ""
  author : String := ""
  description : String := ""
  prompt : Prompt := {}
  copy : List CopyRule := []
  fill : List FillRule := []
deriving Inhabited

variable {σ : Type} [Source σ]

/-- The fields of a copy rule. -/
def CopyRule.field? (name : String) : Option (Field σ CopyRule) :=
  match name with
  | "from" => field lenientText fun r t => { r with source := t }
  | "into" => field lenientText fun r t => { r with target := t }
  | "when" => field lenientText fun r t => { r with gate := t }
  | _ => none

/-- Decodes a copy rule. -/
def CopyRule.decode (s : σ) : Except Yaml.Fault CopyRule :=
  record "CopyRule" [] CopyRule.field? {} s

/-- Decodes the values that belong to a rule. -/
def decodeVars (s : σ) : Except Yaml.Fault (Entries Yaml.Value) :=
  return Entries.ofPairs (← table s)

/-- The fields of a fill rule. -/
def FillRule.field? (name : String) : Option (Field σ FillRule) :=
  match name with
  | "file" => field lenientText fun r t => { r with file := t }
  | "when" => field lenientText fun r t => { r with gate := t }
  | "needs" => field lenientTexts fun r l => { r with needs := l }
  | "vars" => field decodeVars fun r v => { r with vars := v }
  | _ => none

/-- Decodes a fill rule. -/
def FillRule.decode (s : σ) : Except Yaml.Fault FillRule :=
  record "FillRule" [] FillRule.field? {} s

namespace Manifest

/-- The fields of a manifest. -/
def field? (name : String) : Option (Field σ Manifest) :=
  match name with
  | "name" => field lenientText fun m t => { m with name := t }
  | "author" => field lenientText fun m t => { m with author := t }
  | "description" => field lenientText fun m t => { m with description := t }
  | "prompt" => field Prompt.decode fun m p => { m with prompt := p }
  | "copy" => field (list CopyRule.decode) fun m l => { m with copy := l }
  | "fill" => field (list FillRule.decode) fun m l => { m with fill := l }
  | _ => none

/-- Decodes a manifest. -/
def decode (s : σ) : Except Yaml.Fault Manifest := record "Manifest" [] field? {} s

/-- Why a manifest is refused although it decodes. -/
inductive Fault where
  | unreadable (cause : Yaml.Fault)
  | namelessQuestion
  | duplicateQuestion (name : String)
  | fillWithoutFile (gate : String)
deriving DecidableEq, Repr

/-- The sentence for a fault. -/
def Fault.message : Fault → String
  | unreadable cause => cause.message
  | namelessQuestion => "prompt question is missing a name"
  | duplicateQuestion name => s!"duplicate prompt question `{name}`"
  | fillWithoutFile gate => s!"fill rule is missing a file (when: `{gate}`)"

/-- The first question that has no name, or that of an earlier one. -/
def offendingQuestion : List String → List Question → Except Fault Unit
  | _, [] => .ok ()
  | seen, q :: rest =>
    if q.name.isEmpty then .error .namelessQuestion
    else if seen.contains q.name then .error (.duplicateQuestion q.name)
    else offendingQuestion (q.name :: seen) rest

/-- Checks the names of the questions, and then the files of the fill rules. -/
def validate (m : Manifest) : Except Fault Unit := do
  offendingQuestion [] m.prompt.questions
  match m.fill.find? (·.file.isEmpty) with
  | some rule => .error (.fillWithoutFile rule.gate)
  | none => return ()

/-- Reads a manifest. Its questions are asked under its own name. -/
def ofText (text : String) : Except Fault Manifest := do
  let m ← (decodeText decode text).mapError .unreadable
  m.validate
  return { m with prompt := { m.prompt with name := m.name } }

/-- What a manifest says about the template. -/
def info (m : Manifest) : TemplateInfo :=
  { name := m.name, author := m.author, description := m.description }

end Manifest

end Scaffold
