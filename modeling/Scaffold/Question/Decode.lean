import Scaffold.Question
import Scaffold.Yaml.Decode.Place
import Scaffold.Yaml.Decode.Value

/-!
# Decoding questions

A question is a record. The questions of a template are a list, or a record that holds a list;
either way what stands there is read as a value first.
-/

namespace Scaffold

open Yaml Source

variable {σ : Type} [Source σ]

/-- The fields of what a question shows. -/
def Question.Display.field? (name : String) : Option (Field σ Question.Display) :=
  match name with
  | "message" => field lenientText fun d t => { d with message := t }
  | "default" => field lenientText fun d t => { d with default := t }
  | "help" => field lenientText fun d t => { d with help := t }
  | "options" => field lenientTexts fun d l => { d with options := l }
  | "pageSize" => field count fun d n => { d with pageSize := n }
  | "vimMode" => field flag fun d b => { d with vimMode := b }
  | "editor" => field lenientText fun d t => { d with editor := t }
  | "hideDefault" => field flag fun d b => { d with hideDefault := b }
  | "appendDefault" => field flag fun d b => { d with appendDefault := b }
  | "fileName" => field lenientText fun d t => { d with fileName := t }
  | _ => none

/-- Decodes what a question shows. -/
def Question.Display.decode (s : σ) : Except Fault Question.Display :=
  record "QuestionOptions" [] Question.Display.field? {} s

/-- The fields of the rules for an answer. -/
def Validation.field? (name : String) : Option (Field σ Validation) :=
  match name with
  | "required" => field flag fun v b => { v with required := b }
  | "minLength" => field count fun v n => { v with minLength := n }
  | "maxLength" => field count fun v n => { v with maxLength := n }
  | _ => none

/-- Decodes the rules for an answer. -/
def Validation.decode (s : σ) : Except Fault Validation :=
  record "Validation" [] Validation.field? {} s

/-- The fields of a question. -/
def Question.field? (name : String) : Option (Field σ Question) :=
  match name with
  | "name" => field lenientText fun q t => { q with name := t }
  | "type" => field (choice Question.Kind.names) fun q k => { q with kind := k }
  | "prompt" => field Question.Display.decode fun q d => { q with display := d }
  | "validate" => field Validation.decode fun q v => { q with rules := v }
  | "transform" => field (choice Transform.names) fun q t => { q with transform := t }
  | "when" => field lenientText fun q t => { q with gate := t }
  | _ => none

/-- Decodes a question. -/
def Question.decode (s : σ) : Except Fault Question :=
  record "Question" ["name", "type"] Question.field? default s

/-- The fields of a record that holds questions. -/
def Prompt.field? (name : String) : Option (Field σ Prompt) :=
  match name with
  | "name" => field (text "a string") fun p t => { p with name := t }
  | "questions" => field (list Question.decode) fun p l => { p with questions := l }
  | _ => none

/-- The questions that a value stands for. -/
def Prompt.ofValue : Yaml.Value → Except Fault Prompt
  | .null => .ok {}
  | .seq l => return { questions := ← list Question.decode (Yaml.Value.seq l) }
  | v => record "Table" [] Prompt.field? {} v

/-- Decodes the questions of a template. -/
def Prompt.decode (s : σ) : Except Fault Prompt := do Prompt.ofValue (← value s)

/-- Reads a question from a text. -/
def Question.ofText (text : String) : Except Fault Question := decodeText Question.decode text

/-- Reads the questions of a template from a text. -/
def Prompt.ofText (text : String) : Except Fault Prompt := decodeText Prompt.decode text

/-- Reads a list of questions from a text. -/
def Question.listOfText (text : String) : Except Fault (List Question) :=
  decodeText (list Question.decode) text

/-- The transform that has a name. -/
def Transform.ofName (name : String) : Except Fault Transform :=
  choice Transform.names (Yaml.Value.str name)

end Scaffold
