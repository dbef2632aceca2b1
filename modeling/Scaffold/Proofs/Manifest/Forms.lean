import Scaffold.Proofs.Manifest.Texts

/-!
# The forms of a prompt

The questions of a template stand in a list, or in a record with this list : both are read as the
same prompt (`Prompt.ofValue_table`), or both are refused (`Prompt.toOption_decode_table`). A prompt
that says nothing, in any of the ways to say nothing, has no questions (`Prompt.Blank.ofValue_eq`),
and a manifest with such a prompt is the manifest without it (`Manifest.decode_of_blank`).
-/

namespace Scaffold

open Yaml Source

/-! ## Lists and records -/

/-- What is no sequence and not nothing is read as a record. -/
theorem Prompt.ofValue_of_map {v : Value} {entries : List (Value × Value)}
    (h : v.untagged = .map entries) :
    Prompt.ofValue v = fields v Prompt.field? entries [] {} >>= complete [] := by
  have hrecord : Prompt.ofValue v = record "Table" [] Prompt.field? {} v := by
    cases v with
    | null | seq _ => cases h
    | _ => rfl
  rw [hrecord, record_eq]
  change Value.entriesOf _ v >>= _ = _
  rw [Value.entriesOf, h]
  rfl

/-- The only entry of a record stands for its questions. -/
theorem Prompt.ofValue_questions {v w : Value} (h : v.untagged = .map [(.str "questions", w)]) :
    Prompt.ofValue v = (list Question.decode w).map fun l => { questions := l } := by
  have hfields : fields v Prompt.field? [(.str "questions", w)] [] {} =
      list Question.decode w >>= fun l => .ok ({ questions := l }, ["questions"]) := by
    change (list Question.decode w >>= fun l => _) >>= _ = _
    cases list Question.decode w <;> rfl
  rw [Prompt.ofValue_of_map h, hfields]
  cases list Question.decode w <;> rfl

theorem Prompt.ofValue_seq (l : List Value) :
    Prompt.ofValue (.seq l) =
      (list Question.decode (Value.seq l)).map fun l => { questions := l } := by
  rw [Prompt.ofValue]
  cases list Question.decode (Value.seq l) <;> rfl

theorem Prompt.ofValue_table (l : List Value) :
    Prompt.ofValue (.map [(.str "questions", .seq l)]) = Prompt.ofValue (.seq l) := by
  rw [Prompt.ofValue_questions rfl, Prompt.ofValue_seq]

/-- The record with a list of questions is read as the list is. -/
theorem Prompt.toOption_decode_table (path path' : String) (style : Style) (items : List Node) :
    (Prompt.decode (Place.mk (.mapping none [(.scalar none style "questions",
      .sequence none items)]) path)).toOption =
    (Prompt.decode (Place.mk (.sequence none items) path')).toOption := by
  change (Place.valueOf path _ >>= Prompt.ofValue).toOption =
    (Place.valueOf path' _ >>= Prompt.ofValue).toOption
  rw [toOption_bind, toOption_bind, Place.toOption_valueOf_entry path path' style
    (by decide +kernel), Place.valueOf_sequence, toOption_mapError, toOption_map]
  cases (Place.itemsFrom path' 0 items).toOption with
  | none => rfl
  | some l => exact congrArg Except.toOption (Prompt.ofValue_table l)

/-! ## Prompts that say nothing -/

/-- Whether a value says that there are no questions. -/
inductive Prompt.Blank (v : Value) : Prop
  | null : v.untagged = .null → Blank v
  | table : v.untagged = .map [] → Blank v
  | list : v = .seq [] → Blank v
  | questions {w : Value} : v.untagged = .map [(.str "questions", w)] →
    w.untagged = .null ∨ w.untagged = .seq [] → Blank v

theorem Prompt.Blank.ofValue_eq {v : Value} (h : Blank v) : Prompt.ofValue v = .ok {} := by
  cases h with
  | null h =>
    cases v with
    | null => rfl
    | tagged t w =>
      change Value.entriesOf _ (Value.tagged t w) >>= _ = _
      rw [Value.entriesOf, h]
      rfl
    | _ => cases h
  | table h => rw [Prompt.ofValue_of_map h]; rfl
  | list h => rw [h]; rfl
  | @questions w h hw =>
    have hlist : Source.list Question.decode w = .ok [] := by
      change Value.itemsOf w >>= _ = _
      rcases hw with hw | hw <;> (rw [Value.itemsOf, hw]; rfl)
    rw [Prompt.ofValue_questions h, hlist]
    rfl

/-! ## Forms of a text -/

/-- Whether no entry of a mapping has a name. -/
def Lacks (name : String) (entries : List (Node × Node)) : Prop :=
  ∀ e ∈ entries, ∀ tag style, e.1 ≠ .scalar tag style name

theorem Lacks.text_ne {name : String} {entries : List (Node × Node)} (h : Lacks name entries)
    (path : String) : ∀ e ∈ entries.map fun e => (Place.mk e.1 path, Place.mk e.2 path),
      text "field identifier" e.1 ≠ .ok name := by
  intro e he
  obtain ⟨⟨key, n⟩, hmem, rfl⟩ := List.mem_map.mp he
  intro heq
  cases key with
  | scalar tag style t => exact h _ hmem tag style (congrArg _ (Except.ok.inj heq))
  | _ => cases heq

theorem Manifest.decode_mapping (path : String) (tag : Option String)
    (entries : List (Node × Node)) :
    Manifest.decode (Place.mk (.mapping tag entries) path) =
      ((fields (Place.mk .void path) Manifest.field?
        (entries.map fun e => (Place.mk e.1 path, Place.mk e.2 path)) [] {}).map
          Prod.fst).mapError (·.at_ path) := by
  rw [Manifest.decode, record_nil]
  have hplace : ∀ e, under (Place.mk (.mapping tag entries) path) e =
      under (Place.mk .void path) e := fun _ => rfl
  exact congrArg (fun r : Except Yaml.Fault (Manifest × List String) =>
    (r.map Prod.fst).mapError fun f => f.at_ path) (fields_congr hplace ..)

/-- A manifest with a prompt that says nothing is the manifest without it. -/
theorem Manifest.decode_of_blank {n : Node} {v : Value} (hn : Place.StandsFor n v)
    (hv : Prompt.Blank v) (path : String) (tag keyTag : Option String) (style : Style)
    {before after : List (Node × Node)} (hbefore : Lacks "prompt" before)
    (hafter : Lacks "prompt" after) :
    Manifest.decode (Place.mk
        (.mapping tag (before ++ (.scalar keyTag style "prompt", n) :: after)) path) =
      Manifest.decode (Place.mk (.mapping tag (before ++ after)) path) := by
  obtain ⟨⟨store, hslot⟩, -, -⟩ := Manifest.slots (σ := Place)
  rw [Manifest.decode_mapping, Manifest.decode_mapping, List.map_append, List.map_append,
    List.map_cons]
  refine congrArg (Except.mapError _) ?_
  refine hslot.fields_entry_eq rfl (hbefore.text_ne path) (hafter.text_ne path) ?_
  change (Place.valueOf _ n >>= Prompt.ofValue) = .ok {}
  rw [hn]
  exact hv.ofValue_eq

/-- A manifest without a prompt has no questions. -/
theorem Manifest.prompt_of_lacks {path : String} {tag : Option String}
    {entries : List (Node × Node)} (hnone : Lacks "prompt" entries) {m : Manifest}
    (hm : Manifest.decode (Place.mk (.mapping tag entries) path) = .ok m) : m.prompt = {} := by
  obtain ⟨⟨store, hslot⟩, -, -⟩ := Manifest.slots (σ := Place)
  rw [Manifest.decode_mapping] at hm
  cases hread : fields (Place.mk .void path) Manifest.field?
      (entries.map fun e => (Place.mk e.1 path, Place.mk e.2 path)) [] {} with
  | error f => rw [hread] at hm; cases hm
  | ok y =>
    obtain ⟨r, seen⟩ := y
    rw [hread] at hm
    obtain rfl := Except.ok.inj hm
    exact hslot.get_eq (hnone.text_ne path) hread

/-- The two forms of a prompt are read as the same prompt, or both are refused. A prompt that
says nothing has no questions, and neither has one that stands nowhere : the manifest is the same
with it and without it. -/
theorem Prompt.forms_agree :
    (∀ l : List Value, Prompt.decode (Value.map [(.str "questions", .seq l)]) =
      Prompt.decode (Value.seq l)) ∧
    (∀ path path' style items, (Prompt.decode (Place.mk (.mapping none
        [(.scalar none style "questions", .sequence none items)]) path)).toOption =
      (Prompt.decode (Place.mk (.sequence none items) path')).toOption) ∧
    (∀ n v path, Place.StandsFor n v → Prompt.Blank v →
      Prompt.decode (Place.mk n path) = .ok {}) ∧
    (∀ n v path tag keyTag style before after, Place.StandsFor n v → Prompt.Blank v →
      Lacks "prompt" before → Lacks "prompt" after →
      Manifest.decode (Place.mk
          (.mapping tag (before ++ (.scalar keyTag style "prompt", n) :: after)) path) =
        Manifest.decode (Place.mk (.mapping tag (before ++ after)) path)) ∧
    ∀ path tag entries m, Lacks "prompt" entries →
      Manifest.decode (Place.mk (.mapping tag entries) path) = .ok m → m.prompt = {} := by
  refine ⟨Prompt.ofValue_table, Prompt.toOption_decode_table, fun n v path hn hv => ?_,
    fun n v path tag keyTag style before after hn hv hbefore hafter =>
      Manifest.decode_of_blank hn hv path tag keyTag style hbefore hafter,
    fun path tag entries m hnone hm => Manifest.prompt_of_lacks hnone hm⟩
  change (Place.valueOf path n >>= Prompt.ofValue) = .ok {}
  rw [hn]
  exact hv.ofValue_eq

/-- A manifest in which a word for nothing stands for the prompt. -/
theorem forms_agree_null :
    Prompt.decode (Place.mk (.scalar none .plain "~") ".") = .ok {} ∧
    Manifest.decode (Place.mk (.mapping none [(.scalar none .plain "name", .scalar none .plain "a"),
        (.scalar none .plain "prompt", .scalar none .plain "~")]) ".") =
      Manifest.decode (Place.mk (.mapping none
        [(.scalar none .plain "name", .scalar none .plain "a")]) ".") ∧
    (Manifest.decode (Place.mk (.mapping none
      [(.scalar none .plain "name", .scalar none .plain "a")]) ".")).toOption.map Manifest.prompt =
        some {} := by
  have hnull : Place.StandsFor (.scalar none .plain "~") .null := Place.standsFor_scalar rfl
  have hlacks : Lacks "prompt" [(.scalar none .plain "name", .scalar none .plain "a")] := by
    simp [Lacks]
  have hread : (Manifest.decode (Place.mk (.mapping none
      [(.scalar none .plain "name", .scalar none .plain "a")]) ".")).isOk = true := by
    decide +kernel
  obtain ⟨-, -, hblank, hmanifest, habsent⟩ := Prompt.forms_agree
  refine ⟨hblank _ _ "." hnull (.null rfl),
    hmanifest _ _ "." none none .plain _ [] hnull (.null rfl) hlacks (by simp [Lacks]), ?_⟩
  cases hm : Manifest.decode (Place.mk (.mapping none
      [(.scalar none .plain "name", .scalar none .plain "a")]) ".") with
  | error f => rw [hm] at hread; cases hread
  | ok m => exact congrArg some (habsent _ _ _ m hlacks hm)

end Scaffold
