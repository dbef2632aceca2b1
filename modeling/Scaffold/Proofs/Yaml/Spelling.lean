import Scaffold.Proofs.Yaml.Frames
import Scaffold.Proofs.Yaml.Record
import Scaffold.Yaml.Decode.Value

/-!
# Spellings of a text

A value spells the text that it stands for where a text is wanted, and a node spells what its value
spells. A scalar between quotes spells what is written there (`Node.spells_quoted`). A plain one
that is a flag or a number spells it in one way, however it is written (`Node.spells_plain`).

What is read around values carries their texts over : records (`Value.carries_entry`), lists
(`Value.carries_item`) and lists of texts (`Value.carries_texts`), and the same for nodes.
-/

namespace Scaffold.Yaml

open Source

/-! ## What spells a text -/

/-- Whether a value stands for a text where a text is wanted. -/
def Value.Spells (v : Value) (t : String) : Prop := v.lenientText = .ok t

/-- Whether a node stands for a text where a text is wanted. -/
def Node.Spells (n : Node) (t : String) : Prop := ∃ v, Place.StandsFor n v ∧ v.Spells t

/-- The one spelling of a flag, or of a number that a word of 64 bits or a double holds. -/
def Scalar.spelling? : Scalar → Option String
  | bool b => some (toString b)
  | int n => some (toString n)
  | float x => some (Value.floatStyle.write x)
  | _ => none

theorem Place.standsFor_scalar {style : Style} {text : String} {v : Value}
    (h : scalarValue (if style = .plain then .ofPlain text else .text text) = .ok v) :
    StandsFor (.scalar none style text) v := by
  intro path
  have hread : Scalar.ofTagged none style text >>= scalarValue = .ok v := h
  simp only [valueOf, variantTag?, Option.isSome_none, Bool.false_eq_true, if_false, hread,
    withVariant]

/-- A mapping with one entry stands for a value if what stands under its key does. -/
theorem Place.toOption_valueOf_entry (path path' : String) (style : Style) {name : String}
    (hname : Scalar.isWord name = true) (n : Node) :
    (valueOf path (.mapping none [(.scalar none style name, n)])).toOption =
      (valueOf path' n).toOption.map fun v => .map [(.str name, v)] := by
  have hkey : StandsFor (.scalar none style name) (.str name) := by
    refine standsFor_scalar ?_
    rw [ofPlain_of_isWord hname, ite_self]
    rfl
  have hentries : entriesFrom path [(.scalar none style name, n)] [] =
      (valueOf (keyPath path (.scalar none style name)) n).map fun v => [(.str name, v)] := by
    rw [entriesFrom, hkey]
    change (valueOf _ n >>= fun v => entriesFrom path [] [(.str name, v)]) = _
    cases valueOf (keyPath path (.scalar none style name)) n <;> rfl
  rw [valueOf_mapping, toOption_mapError, toOption_map, hentries, toOption_map, Option.map_map,
    toOption_valueOf _ path' n]
  rfl

/-- Quotes keep a text. -/
theorem Node.spells_quoted {style : Style} (h : style ≠ .plain) (text : String) :
    (Node.scalar none style text).Spells text :=
  ⟨.str text, Place.standsFor_scalar (by rw [if_neg h]; rfl), rfl⟩

/-- A plain scalar that is a flag or a number spells it. -/
theorem Node.spells_plain {text t : String} (h : (Scalar.ofPlain text).spelling? = some t) :
    (Node.scalar none .plain text).Spells t := by
  have hscalar : ∀ s : Scalar, s.spelling? = some t →
      ∃ v, Place.scalarValue s = .ok v ∧ v.Spells t := by
    intro s hs
    cases s with
    | bool b => exact ⟨.bool b, rfl, congrArg _ (Option.some.inj hs)⟩
    | int n => exact ⟨.int n, rfl, congrArg _ (Option.some.inj hs)⟩
    | float x => exact ⟨.float x, rfl, congrArg _ (Option.some.inj hs)⟩
    | null | wide _ | text _ => cases hs
  obtain ⟨v, hv, hspells⟩ := hscalar _ h
  exact ⟨v, Place.standsFor_scalar (by rw [if_pos rfl]; exact hv), hspells⟩

/-! ## Values around values -/

namespace Value

variable {τ α ρ : Type} {spells : τ → String → Prop} {around : Frame} {inner : τ → Value}

theorem inOnePlace (s : τ → Value) : InOnePlace s .null id :=
  ⟨fun _ _ => rfl, fun _ _ r => by cases r <;> rfl⟩

/-- A record holds the text that an entry of it holds. -/
theorem carries_entry {name : String} (hframe : around.Leads (.key name))
    {known : String → Option (Field Value ρ)} {decode : Value → Except Fault α}
    {store : ρ → α → ρ} {get : ρ → α} (hslot : Slot known name decode store get)
    {title : String} {needed : List String} {start : ρ} {holds : α → Option String}
    (h : Carries spells (fun x => decode (inner x)) holds) :
    Carries spells (fun x => record title needed known start (around.put (inner x)))
      fun r => holds (get r) := by
  cases hframe with
  | @entry tag before key _ after hkey =>
    have hentries (x : τ) : entries s!"struct {title}"
        ((Frame.entry tag before key after).put (inner x)) =
          .ok (before ++ (key, inner x) :: after) := by
      change entriesOf _ _ = _
      rw [entriesOf, Frame.put, Place.untagged_withVariant]
      rfl
    have hname : text "field identifier" key = .ok name := by
      change textOf _ _ = _
      rw [textOf, hkey]
    exact Carries.record (inOnePlace _) hslot hentries hname h

/-- A list holds the text that an item of it holds. -/
theorem carries_item {index : Nat} (hframe : around.Leads (.item index))
    {decode : Value → Except Fault α} {holds : α → Option String}
    (h : Carries spells (fun x => decode (inner x)) holds) :
    Carries spells (fun x => list decode (around.put (inner x)))
      fun l => l[index]?.bind holds := by
  cases hframe with
  | item tag before after =>
    have hitems (x : τ) : items ((Frame.item tag before after).put (inner x)) =
        .ok (before ++ inner x :: after) := by
      change itemsOf _ = _
      rw [itemsOf, Frame.put, Place.untagged_withVariant]
      rfl
    exact Carries.list (inOnePlace _) hitems h

/-- A value that spells a text is read as this text. -/
theorem carries_text : Carries Spells (fun v : Value => lenientText v) some :=
  .holds id (fun _ _ h => h) fun _ => rfl

/-- A list of texts holds the text of its item. -/
theorem carries_texts {index : Nat} (hframe : around.Leads (.item index)) :
    Carries Spells (fun v => (around.put v).lenientTexts) fun l => l[index]? := by
  cases hframe with
  | item tag before after =>
    simp only [Frame.put, Place.withVariant]
    cases Place.variantTag? tag with
    | some t =>
      exact .fails (.mismatch none s!"expected a sequence, found {(tagged t null).kind}")
        fun _ _ _ => rfl
    | none =>
      have hsome : (fun l : List String => l[before.length]?) =
          fun l => l[before.length]?.bind some := by simp
      rw [hsome]
      exact carries_text.mapM before after

end Value

/-! ## Nodes around nodes -/

namespace Place

variable {τ α ρ : Type} {spells : τ → String → Prop} {around : Node.Frame} {inner : τ → Node}

theorem inOnePlace (n : τ → Node) (path : String) :
    InOnePlace (fun x => Place.mk (n x) path) ⟨.void, path⟩ (·.at_ path) :=
  ⟨fun _ _ => rfl, fun _ _ _ => rfl⟩

/-- A record holds the text that an entry of it holds. -/
theorem carries_entry {name : String} (hframe : around.Leads (.key name))
    {known : String → Option (Field Place ρ)} {decode : Place → Except Fault α}
    {store : ρ → α → ρ} {get : ρ → α} (hslot : Slot known name decode store get)
    {title : String} {needed : List String} {start : ρ} {holds : α → Option String}
    (h : ∀ path, Carries spells (fun x => decode ⟨inner x, path⟩) holds) (path : String) :
    Carries spells (fun x => record title needed known start ⟨around.put (inner x), path⟩)
      fun r => holds (get r) := by
  cases hframe with
  | entry tag before keyTag style _ after =>
    let placed (e : Node × Node) : Place × Place := (⟨e.1, path⟩, ⟨e.2, path⟩)
    have hentries (x : τ) : entries s!"struct {title}"
        (Place.mk ((Node.Frame.entry tag before (.scalar keyTag style name) after).put (inner x))
          path) =
        .ok (before.map placed ++
          (⟨.scalar keyTag style name, path⟩, ⟨inner x, path⟩) :: after.map placed) := by
      change Except.ok ((before ++ _ :: after).map placed) = _
      rw [List.map_append, List.map_cons]
    exact Carries.record (inOnePlace _ path) hslot hentries rfl (h _)

/-- A list holds the text that an item of it holds. -/
theorem carries_item {index : Nat} (hframe : around.Leads (.item index))
    {decode : Place → Except Fault α} {holds : α → Option String}
    (h : ∀ path, Carries spells (fun x => decode ⟨inner x, path⟩) holds) (path : String) :
    Carries spells (fun x => list decode ⟨around.put (inner x), path⟩)
      fun l => l[index]?.bind holds := by
  cases hframe with
  | item tag before after =>
    let placed (i : Node × Nat) : Place := ⟨i.1, itemPath path i.2⟩
    have hitems (x : τ) : items
        (Place.mk ((Node.Frame.item tag before after).put (inner x)) path) =
        .ok (before.zipIdx.map placed ++ ⟨inner x, itemPath path before.length⟩ ::
          (after.zipIdx (before.length + 1)).map placed) := by
      change Except.ok ((before ++ inner x :: after).zipIdx.map placed) = _
      rw [List.zipIdx_append, List.zipIdx_cons, List.map_append, List.map_cons, Nat.zero_add]
    have hlist := Carries.list (inOnePlace _ path) hitems (h _)
    rwa [List.length_map, List.length_zipIdx] at hlist

/-- What is read off the value of a node carries a text over as it does for values. -/
theorem carries_value {frames : List Node.Frame} {steps : List Step}
    (hframes : List.Forall₂ Node.Frame.Leads frames steps) (hwords : ∀ s ∈ steps, s.IsWord)
    {read : Value → Except Fault α} {holds : α → Option String}
    (h : ∀ around : List Value.Frame, List.Forall₂ Value.Frame.Leads around steps →
      Carries Value.Spells (fun v => read (v.within around)) holds) (path : String) :
    Carries Node.Spells (fun n => valueOf path (n.within frames) >>= read) holds := by
  rcases valueOf_within hframes hwords path with ⟨around, haround, hvalue⟩ | ⟨f, hf⟩
  · cases h around haround with
    | holds make hmake hget =>
      refine .holds make (fun n t hn => ?_) hget
      obtain ⟨v, hv, hspells⟩ := hn
      rw [hvalue n v hv]
      exact hmake v t hspells
    | fails f hf =>
      refine .fails f fun n t hn => ?_
      obtain ⟨v, hv, hspells⟩ := hn
      rw [hvalue n v hv]
      exact hf v t hspells
  · refine .fails f fun n t hn => ?_
    obtain ⟨v, hv, -⟩ := hn
    rw [hf n v hv]
    rfl

/-- A node that spells a text is read as this text. -/
theorem carries_text (path : String) :
    Carries Node.Spells (fun n => lenientText (Place.mk n path)) some :=
  carries_value List.Forall₂.nil (by simp) (fun around haround => by
    cases haround
    exact Value.carries_text) path

/-- A list of texts holds the text of its item. -/
theorem carries_texts {frame : Node.Frame} {index : Nat} (hframe : frame.Leads (.item index))
    (path : String) :
    Carries Node.Spells (fun n => lenientTexts (Place.mk (frame.put n) path)) fun l => l[index]? :=
  carries_value (.cons hframe .nil) (by simp [Step.IsWord]) (fun around haround => by
    rcases haround with _ | ⟨hitem, ⟨⟩⟩
    exact Value.carries_texts hitem) path

end Place

end Scaffold.Yaml
