import Scaffold.Manifest
import Scaffold.Proofs.Yaml.Numeral
import Scaffold.Proofs.Yaml.Spelling

/-!
# The texts of a manifest

`Manifest.TextField` lists where texts stand in a manifest, and what holds them once it is decoded.
Whatever spells a text is held as this text (`Manifest.TextField.carries`), so what stands there
may as well be written between quotes. This is how a flag or a number is held that stands there
without quotes (`Manifest.decodeWithin_plain`). It is not always held as it is written
(`Manifest.not_kept_without_quotes`).
-/

namespace Scaffold

open Yaml Source

/-! ## Where texts stand -/

/-- The texts of what a question shows. -/
inductive Question.Display.Text : String → (Display → String) → Prop
  | message : Text "message" Display.message
  | default : Text "default" Display.default
  | help : Text "help" Display.help
  | editor : Text "editor" Display.editor
  | fileName : Text "fileName" Display.fileName

/-- The texts of what a question shows, and its options. -/
inductive Question.Display.TextField : List Step → (Display → Option String) → Prop
  | text {name : String} {get : Display → String} : Text name get →
    TextField [.key name] fun d => some (get d)
  | option (i : Nat) : TextField [.key "options", .item i] fun d => d.options[i]?

/-- The texts of a question. -/
inductive Question.TextField : List Step → (Question → Option String) → Prop
  | name : TextField [.key "name"] fun q => some q.name
  | gate : TextField [.key "when"] fun q => some q.gate
  | display {steps : List Step} {get : Display → Option String} : Display.TextField steps get →
    TextField (.key "prompt" :: steps) fun q => get q.display

/-- The texts of questions, which stand in a list or in a record with a list. -/
inductive Prompt.TextField : List Step → (Prompt → Option String) → Prop
  | listed (i : Nat) {steps : List Step} {get : Question → Option String} :
    Question.TextField steps get →
    TextField (.item i :: steps) fun p => p.questions[i]?.bind get
  | tabled (i : Nat) {steps : List Step} {get : Question → Option String} :
    Question.TextField steps get →
    TextField (.key "questions" :: .item i :: steps) fun p => p.questions[i]?.bind get

/-- The texts of a copy rule. -/
inductive CopyRule.Text : String → (CopyRule → String) → Prop
  | source : Text "from" CopyRule.source
  | target : Text "into" CopyRule.target
  | gate : Text "when" CopyRule.gate

/-- The texts of a copy rule, as those of other records. -/
inductive CopyRule.TextField : List Step → (CopyRule → Option String) → Prop
  | text {name : String} {get : CopyRule → String} : Text name get →
    TextField [.key name] fun r => some (get r)

/-- The texts of a fill rule, and the files that it needs. -/
inductive FillRule.TextField : List Step → (FillRule → Option String) → Prop
  | file : TextField [.key "file"] fun r => some r.file
  | gate : TextField [.key "when"] fun r => some r.gate
  | need (i : Nat) : TextField [.key "needs", .item i] fun r => r.needs[i]?

/-- The texts of a manifest outside of its lists. -/
inductive Manifest.Text : String → (Manifest → String) → Prop
  | name : Text "name" Manifest.name
  | author : Text "author" Manifest.author
  | description : Text "description" Manifest.description

/-- The texts of a manifest. -/
inductive Manifest.TextField : List Step → (Manifest → Option String) → Prop
  | text {name : String} {get : Manifest → String} : Text name get →
    TextField [.key name] fun m => some (get m)
  | prompt {steps : List Step} {get : Prompt → Option String} : Prompt.TextField steps get →
    TextField (.key "prompt" :: steps) fun m => get m.prompt
  | copy (i : Nat) {steps : List Step} {get : CopyRule → Option String} :
    CopyRule.TextField steps get →
    TextField (.key "copy" :: .item i :: steps) fun m => m.copy[i]?.bind get
  | fill (i : Nat) {steps : List Step} {get : FillRule → Option String} :
    FillRule.TextField steps get →
    TextField (.key "fill" :: .item i :: steps) fun m => m.fill[i]?.bind get

/-! ## Fields of their own -/

section

variable {σ : Type} [Source σ]

theorem Question.Display.Text.slot {name : String} {get : Display → String} (h : Text name get) :
    ∃ store, Slot (σ := σ) Display.field? name lenientText store get := by
  cases h <;> refine ⟨_, rfl, fun _ _ => rfl, fun _ => rfl, fun a other read hread hne => ?_⟩ <;>
    unfold Display.field? at hread <;> split at hread <;>
    first
    | exact absurd rfl hne
    | exact field_change hread fun _ _ => rfl
    | cases hread

theorem Question.Display.slot_options :
    ∃ store, Slot (σ := σ) Display.field? "options" lenientTexts store Display.options := by
  refine ⟨_, rfl, fun _ _ => rfl, fun _ => rfl, fun a other read hread hne => ?_⟩
  unfold Display.field? at hread
  split at hread <;>
    first
    | exact absurd rfl hne
    | exact field_change hread fun _ _ => rfl
    | cases hread

theorem Question.slots :
    (∃ store, Slot (σ := σ) Question.field? "name" lenientText store Question.name) ∧
    (∃ store, Slot (σ := σ) Question.field? "when" lenientText store Question.gate) ∧
    ∃ store, Slot (σ := σ) Question.field? "prompt" Display.decode store Question.display := by
  refine ⟨?_, ?_, ?_⟩ <;>
    refine ⟨_, rfl, fun _ _ => rfl, fun _ => rfl, fun a other read hread hne => ?_⟩ <;>
    unfold Question.field? at hread <;> split at hread <;>
    first
    | exact absurd rfl hne
    | exact field_change hread fun _ _ => rfl
    | cases hread

theorem Prompt.slot_questions : ∃ store,
    Slot (σ := σ) Prompt.field? "questions" (list Question.decode) store Prompt.questions := by
  refine ⟨_, rfl, fun _ _ => rfl, fun _ => rfl, fun a other read hread hne => ?_⟩
  unfold Prompt.field? at hread
  split at hread <;>
    first
    | exact absurd rfl hne
    | exact field_change hread fun _ _ => rfl
    | cases hread

theorem CopyRule.Text.slot {name : String} {get : CopyRule → String} (h : Text name get) :
    ∃ store, Slot (σ := σ) CopyRule.field? name lenientText store get := by
  cases h <;> refine ⟨_, rfl, fun _ _ => rfl, fun _ => rfl, fun a other read hread hne => ?_⟩ <;>
    unfold CopyRule.field? at hread <;> split at hread <;>
    first
    | exact absurd rfl hne
    | exact field_change hread fun _ _ => rfl
    | cases hread

theorem FillRule.slots :
    (∃ store, Slot (σ := σ) FillRule.field? "file" lenientText store FillRule.file) ∧
    (∃ store, Slot (σ := σ) FillRule.field? "when" lenientText store FillRule.gate) ∧
    ∃ store, Slot (σ := σ) FillRule.field? "needs" lenientTexts store FillRule.needs := by
  refine ⟨?_, ?_, ?_⟩ <;>
    refine ⟨_, rfl, fun _ _ => rfl, fun _ => rfl, fun a other read hread hne => ?_⟩ <;>
    unfold FillRule.field? at hread <;> split at hread <;>
    first
    | exact absurd rfl hne
    | exact field_change hread fun _ _ => rfl
    | cases hread

theorem Manifest.Text.slot {name : String} {get : Manifest → String} (h : Text name get) :
    ∃ store, Slot (σ := σ) Manifest.field? name lenientText store get := by
  cases h <;> refine ⟨_, rfl, fun _ _ => rfl, fun _ => rfl, fun a other read hread hne => ?_⟩ <;>
    unfold Manifest.field? at hread <;> split at hread <;>
    first
    | exact absurd rfl hne
    | exact field_change hread fun _ _ => rfl
    | cases hread

theorem Manifest.slots :
    (∃ store, Slot (σ := σ) Manifest.field? "prompt" Prompt.decode store Manifest.prompt) ∧
    (∃ store, Slot (σ := σ) Manifest.field? "copy" (list CopyRule.decode) store Manifest.copy) ∧
    ∃ store, Slot (σ := σ) Manifest.field? "fill" (list FillRule.decode) store Manifest.fill := by
  refine ⟨?_, ?_, ?_⟩ <;>
    refine ⟨_, rfl, fun _ _ => rfl, fun _ => rfl, fun a other read hread hne => ?_⟩ <;>
    unfold Manifest.field? at hread <;> split at hread <;>
    first
    | exact absurd rfl hne
    | exact field_change hread fun _ _ => rfl
    | cases hread

end

/-! ## Records around texts -/

section

variable {around : List Value.Frame} {steps : List Step}

theorem Question.Display.TextField.carries {get : Display → Option String}
    (h : TextField steps get) (haround : List.Forall₂ Value.Frame.Leads around steps) :
    Carries Value.Spells (fun v => Display.decode (v.within around)) get := by
  cases h with
  | text htext =>
    obtain ⟨store, hslot⟩ := htext.slot (σ := Value)
    rcases haround with _ | ⟨hframe, ⟨⟩⟩
    exact Value.carries_entry hframe hslot Value.carries_text
  | option i =>
    obtain ⟨store, hslot⟩ := slot_options (σ := Value)
    rcases haround with _ | ⟨hframe, _ | ⟨hitem, ⟨⟩⟩⟩
    exact Value.carries_entry hframe hslot (Value.carries_texts hitem)

theorem Question.TextField.carries {get : Question → Option String} (h : TextField steps get)
    (haround : List.Forall₂ Value.Frame.Leads around steps) :
    Carries Value.Spells (fun v => Question.decode (v.within around)) get := by
  obtain ⟨⟨_, hname⟩, ⟨_, hgate⟩, ⟨_, hdisplay⟩⟩ := Question.slots (σ := Value)
  cases h with
  | name =>
    rcases haround with _ | ⟨hframe, ⟨⟩⟩
    exact Value.carries_entry hframe hname Value.carries_text
  | gate =>
    rcases haround with _ | ⟨hframe, ⟨⟩⟩
    exact Value.carries_entry hframe hgate Value.carries_text
  | display hfield =>
    rcases haround with _ | ⟨hframe, hrest⟩
    exact Value.carries_entry hframe hdisplay (hfield.carries hrest)

/-- A value that is no sequence and not nothing is read as a record that holds questions. -/
theorem Prompt.ofValue_entry {frame : Value.Frame} {name : String}
    (hframe : frame.Leads (.key name)) (v : Value) :
    Prompt.ofValue (frame.put v) = record "Table" [] Prompt.field? {} (frame.put v) := by
  cases hframe with
  | entry tag before after hkey =>
    rw [Value.Frame.put, Place.withVariant]
    cases Place.variantTag? tag <;> rfl

/-- A sequence is read as a list of questions, if it is no variant. -/
theorem Prompt.ofValue_item {frame : Value.Frame} {index : Nat}
    (hframe : frame.Leads (.item index)) :
    (∃ f, ∀ v, Prompt.ofValue (frame.put v) = .error f) ∨
    ∀ v, Prompt.ofValue (frame.put v) =
      list Question.decode (frame.put v) >>= fun l => .ok { questions := l } := by
  cases hframe with
  | item tag before after =>
    simp only [Value.Frame.put, Place.withVariant]
    cases Place.variantTag? tag with
    | some t =>
      have hrefused (v : Value) : Prompt.ofValue (.tagged t (.seq (before ++ v :: after))) =
          wrongKind (Value.seq []).describe ("struct " ++ "Table") := rfl
      exact Or.inl ⟨_, hrefused⟩
    | none => exact Or.inr fun _ => rfl

theorem Prompt.TextField.carries {get : Prompt → Option String} (h : TextField steps get)
    (haround : List.Forall₂ Value.Frame.Leads around steps) :
    Carries Value.Spells (fun v => Prompt.ofValue (v.within around)) get := by
  cases h with
  | @listed i steps get hfield =>
    rcases haround with _ | @⟨frame, _, rest, _, hframe, hrest⟩
    have hlist := Value.carries_item hframe (hfield.carries hrest)
    rcases ofValue_item hframe with ⟨f, hf⟩ | hread
    · exact .fails f fun v _ _ => hf _
    · have hprompt : Carries Value.Spells
          (fun v => list Question.decode (frame.put (v.within rest)) >>= fun l =>
            .ok ({ questions := l } : Prompt)) fun p => p.questions[i]?.bind get :=
        hlist.bind (Or.inl ⟨fun l => { questions := l }, fun _ => rfl, fun _ => rfl⟩)
      exact hprompt.congr fun v _ _ => hread (v.within rest)
  | tabled i hfield =>
    obtain ⟨store, hslot⟩ := slot_questions (σ := Value)
    rcases haround with _ | ⟨hframe, _ | ⟨hitem, hrest⟩⟩
    refine Carries.congr ?_ fun v _ _ => ofValue_entry hframe _
    exact Value.carries_entry hframe hslot (Value.carries_item hitem (hfield.carries hrest))

theorem Question.Display.Text.isWord {name : String} {get : Display → String}
    (h : Text name get) : Scalar.isWord name = true := by
  cases h <;> decide +kernel

theorem Question.Display.TextField.isWord {get : Display → Option String}
    (h : TextField steps get) : ∀ s ∈ steps, s.IsWord := by
  cases h with
  | text htext => exact List.forall_mem_singleton.mpr htext.isWord
  | option i =>
    exact List.forall_mem_cons.mpr ⟨(by decide +kernel : Scalar.isWord "options" = true),
      List.forall_mem_singleton.mpr trivial⟩

theorem Question.TextField.isWord {get : Question → Option String} (h : TextField steps get) :
    ∀ s ∈ steps, s.IsWord := by
  cases h with
  | name =>
    exact List.forall_mem_singleton.mpr (by decide +kernel : Scalar.isWord "name" = true)
  | gate =>
    exact List.forall_mem_singleton.mpr (by decide +kernel : Scalar.isWord "when" = true)
  | display hfield =>
    exact List.forall_mem_cons.mpr ⟨(by decide +kernel : Scalar.isWord "prompt" = true),
      hfield.isWord⟩

/-- What leads from the questions of a manifest to a text can be written in any way. -/
theorem Prompt.TextField.isWord {get : Prompt → Option String} (h : TextField steps get) :
    ∀ s ∈ steps, s.IsWord := by
  cases h with
  | listed i hfield => exact List.forall_mem_cons.mpr ⟨trivial, hfield.isWord⟩
  | tabled i hfield =>
    exact List.forall_mem_cons.mpr ⟨(by decide +kernel : Scalar.isWord "questions" = true),
      List.forall_mem_cons.mpr ⟨trivial, hfield.isWord⟩⟩

theorem CopyRule.TextField.carries {get : CopyRule → Option String} (h : TextField steps get)
    {frames : List Node.Frame} (hframes : List.Forall₂ Node.Frame.Leads frames steps)
    (path : String) :
    Carries Node.Spells (fun n => CopyRule.decode (Place.mk (n.within frames) path)) get := by
  cases h with
  | text htext =>
    obtain ⟨store, hslot⟩ := htext.slot (σ := Place)
    rcases hframes with _ | ⟨hframe, ⟨⟩⟩
    exact Place.carries_entry hframe hslot Place.carries_text path

theorem FillRule.TextField.carries {get : FillRule → Option String} (h : TextField steps get)
    {frames : List Node.Frame} (hframes : List.Forall₂ Node.Frame.Leads frames steps)
    (path : String) :
    Carries Node.Spells (fun n => FillRule.decode (Place.mk (n.within frames) path)) get := by
  obtain ⟨⟨_, hfile⟩, ⟨_, hgate⟩, ⟨_, hneeds⟩⟩ := FillRule.slots (σ := Place)
  cases h with
  | file =>
    rcases hframes with _ | ⟨hframe, ⟨⟩⟩
    exact Place.carries_entry hframe hfile Place.carries_text path
  | gate =>
    rcases hframes with _ | ⟨hframe, ⟨⟩⟩
    exact Place.carries_entry hframe hgate Place.carries_text path
  | need i =>
    rcases hframes with _ | ⟨hframe, _ | ⟨hitem, ⟨⟩⟩⟩
    exact Place.carries_entry hframe hneeds (Place.carries_texts hitem) path

/-- A manifest holds what is spelled in the place of a text. -/
theorem Manifest.TextField.carries {get : Manifest → Option String} (h : TextField steps get)
    {frames : List Node.Frame} (hframes : List.Forall₂ Node.Frame.Leads frames steps)
    (path : String) :
    Carries Node.Spells (fun n => Manifest.decode (Place.mk (n.within frames) path)) get := by
  obtain ⟨⟨_, hprompt⟩, ⟨_, hcopy⟩, ⟨_, hfill⟩⟩ := Manifest.slots (σ := Place)
  cases h with
  | text htext =>
    obtain ⟨store, hslot⟩ := htext.slot (σ := Place)
    rcases hframes with _ | ⟨hframe, ⟨⟩⟩
    exact Place.carries_entry hframe hslot Place.carries_text path
  | prompt hfield =>
    rcases hframes with _ | ⟨hframe, hrest⟩
    exact Place.carries_entry hframe hprompt
      (Place.carries_value hrest hfield.isWord fun _ haround => hfield.carries haround) path
  | copy i hfield =>
    rcases hframes with _ | ⟨hframe, _ | ⟨hitem, hrest⟩⟩
    exact Place.carries_entry hframe hcopy (Place.carries_item hitem (hfield.carries hrest)) path
  | fill i hfield =>
    rcases hframes with _ | ⟨hframe, _ | ⟨hitem, hrest⟩⟩
    exact Place.carries_entry hframe hfill (Place.carries_item hitem (hfield.carries hrest)) path

end

/-! ## Texts without quotes -/

namespace Manifest

/-- The manifest with a node in the place that frames lead to. -/
def decodeWithin (frames : List Node.Frame) (path : String) (n : Node) :
    Except Yaml.Fault Manifest :=
  decode (Place.mk (n.within frames) path)

/-- In the place of a text a flag or a number without quotes is read as its spelling between
quotes, and the manifest holds this spelling. It is read wherever any text between quotes is. A
flag or a whole number that is written as it is spelled is held as it is written. -/
theorem decodeWithin_plain {steps : List Step} {get : Manifest → Option String}
    (hfield : TextField steps get) {frames : List Node.Frame}
    (hframes : List.Forall₂ Node.Frame.Leads frames steps) {text t : String}
    (hplain : (Scalar.ofPlain text).spelling? = some t) (path : String) :
    (∀ style, style ≠ .plain → decodeWithin frames path (.scalar none .plain text) =
      decodeWithin frames path (.scalar none style t)) ∧
    (∀ style t', style ≠ .plain → (decodeWithin frames path (.scalar none .plain text)).isOk =
      (decodeWithin frames path (.scalar none style t')).isOk) ∧
    (∀ m, decodeWithin frames path (.scalar none .plain text) = .ok m → get m = some t) ∧
    (∀ b : Bool, text = toString b → t = text) ∧
    ∀ n : Int, -2 ^ 63 ≤ n → n < 2 ^ 64 → text = toString n → t = text := by
  have hspelled : ∀ s : Scalar, Scalar.ofPlain text = s → s.spelling? = some t := by
    rintro s rfl
    exact hplain
  have hexact : (∀ b : Bool, text = toString b → t = text) ∧
      ∀ n : Int, -2 ^ 63 ≤ n → n < 2 ^ 64 → text = toString n → t = text := by
    constructor
    · rintro b rfl
      have hb : Scalar.ofPlain (toString b) = .bool b := by cases b <;> rfl
      exact (Option.some.inj (hspelled _ hb)).symm
    · rintro n hlow hhigh rfl
      exact (Option.some.inj (hspelled _ (Scalar.ofPlain_toString hlow hhigh))).symm
  have hcarries : Carries Node.Spells (decodeWithin frames path) get := hfield.carries hframes path
  have htext := Node.spells_plain hplain
  have hquoted (style : Style) (t' : String) (hstyle : style ≠ .plain) :
      (Node.scalar none style t').Spells t' := Node.spells_quoted hstyle t'
  cases hcarries with
  | holds make hmake hget =>
    have hread := hmake _ _ htext
    refine ⟨fun style hstyle => ?_, fun style t' hstyle => ?_, fun m hm => ?_, hexact⟩
    · rw [hread, hmake _ _ (hquoted style t hstyle)]
    · rw [hread, hmake _ _ (hquoted style t' hstyle)]
      rfl
    · rw [hread] at hm
      obtain rfl := Except.ok.inj hm
      exact hget t
  | fails f hf =>
    have hread := hf _ _ htext
    refine ⟨fun style hstyle => ?_, fun style t' hstyle => ?_, fun m hm => ?_, hexact⟩
    · rw [hread, hf _ _ (hquoted style t hstyle)]
    · rw [hread, hf _ _ (hquoted style t' hstyle)]
    · rw [hread] at hm
      cases hm

/-- What stands around the gate of the only copy rule. -/
def gateFrames : List Node.Frame :=
  [.entry none [] (.scalar none .plain "copy") [], .item none [] [],
    .entry none [(.scalar none .plain "from", .scalar none .plain "a")]
      (.scalar none .plain "when") []]

/-- A gate that is a hexadecimal number is held in decimal. -/
theorem decodeWithin_hexadecimal :
    decodeWithin gateFrames "." (.scalar none .plain "0x1F") =
      decodeWithin gateFrames "." (.scalar none .double "31") ∧
    (decodeWithin gateFrames "." (.scalar none .plain "0x1F")).toOption.map Manifest.copy =
      some [{ source := "a", gate := "31" }] :=
  ⟨(decodeWithin_plain (.copy 0 (.text .gate))
      (.cons (.entry none [] none .plain "copy" []) (.cons (.item none [] [])
        (.cons (.entry none _ none .plain "when" []) .nil)))
      (t := "31") (by decide +kernel) ".").1 .double (by decide), by decide +kernel⟩

/-- Some numbers are not held as they are written, or not read at all, and the name of the
questions has to be a text. Between quotes all of these are read as they are written. -/
theorem not_kept_without_quotes :
    ((ofText "name: 0x1F\n").toOption.map Manifest.name = some "31" ∧
      (ofText "name: '0x1F'\n").toOption.map Manifest.name = some "0x1F") ∧
    ((ofText "name: 18446744073709551616\n").toOption.map Manifest.name = none ∧
      (ofText "name: '18446744073709551616'\n").toOption.map Manifest.name =
        some "18446744073709551616") ∧
    ((ofText "prompt: \x7bname: true\x7d\n").toOption.map Manifest.name = none ∧
      (ofText "prompt: \x7bname: 'true'\x7d\n").toOption.map Manifest.name = some "") := by
  decide +kernel

end Manifest

end Scaffold
