import Mathlib.Data.List.Forall2
import Scaffold.Yaml.Decode.Place

/-!
# What stands around a node

The path to a node is only there for faults : what the node stands for is the same under every
path (`toOption_valueOf`).

`Node.Frame` is what stands around a node in the collection that it is in, and frames around frames
lead to it from the root. `Value.Frame` is the same for values. What is around a node is read in
the same way whatever the node is, as long as it stands for a value (`valueOf_within`).
-/

namespace Scaffold.Yaml

/-! ## Results and faults -/

theorem toOption_map {ε α β : Type} (f : α → β) (r : Except ε α) :
    (r.map f).toOption = r.toOption.map f := by
  cases r <;> rfl

theorem toOption_mapError {ε ε' α : Type} (f : ε → ε') (r : Except ε α) :
    (r.mapError f).toOption = r.toOption := by
  cases r <;> rfl

theorem toOption_bind {ε α β : Type} (r : Except ε α) (f : α → Except ε β) :
    (r >>= f).toOption = r.toOption.bind fun a => (f a).toOption := by
  cases r <;> rfl

namespace Place

/-! ## The path to a node -/

theorem valueOf_sequence (path : String) (tag : Option String) (items : List Node) :
    valueOf path (.sequence tag items) =
      ((itemsFrom path 0 items).map fun l => withVariant tag (.seq l)).mapError (·.at_ path) := by
  rw [valueOf]
  cases itemsFrom path 0 items <;> rfl

theorem valueOf_mapping (path : String) (tag : Option String) (entries : List (Node × Node)) :
    valueOf path (.mapping tag entries) =
      ((entriesFrom path entries []).map fun l => withVariant tag (.map l)).mapError
        (·.at_ path) := by
  rw [valueOf]
  cases entriesFrom path entries [] <;> rfl

mutual

/-- What a node stands for does not depend on the path to it. -/
theorem toOption_valueOf (path path' : String) :
    ∀ n : Node, (valueOf path n).toOption = (valueOf path' n).toOption
  | .scalar tag style text => by
    simp only [valueOf]
    split <;> rfl
  | .sequence tag items => by
    rw [valueOf_sequence, valueOf_sequence, toOption_mapError, toOption_mapError, toOption_map,
      toOption_map, toOption_itemsFrom path path' 0 0 items]
  | .mapping tag entries => by
    rw [valueOf_mapping, valueOf_mapping, toOption_mapError, toOption_mapError, toOption_map,
      toOption_map, toOption_entriesFrom path path' entries []]
  | .alias _ => by simp only [valueOf]
  | .void => by simp only [valueOf]
  | .broken _ => by simp only [valueOf]

theorem toOption_itemsFrom (path path' : String) (index index' : Nat) :
    ∀ items : List Node,
      (itemsFrom path index items).toOption = (itemsFrom path' index' items).toOption
  | [] => by simp only [itemsFrom]
  | n :: rest => by
    simp only [itemsFrom, toOption_bind]
    rw [toOption_valueOf (itemPath path index) (itemPath path' index') n,
      toOption_itemsFrom path path' (index + 1) (index' + 1) rest]

theorem toOption_entriesFrom (path path' : String) :
    ∀ (entries : List (Node × Node)) (before : List (Value × Value)),
      (entriesFrom path entries before).toOption = (entriesFrom path' entries before).toOption
  | [], before => by simp only [entriesFrom]
  | (k, v) :: rest, before => by
    simp only [entriesFrom, toOption_bind]
    rw [toOption_valueOf path path' k]
    congr 1
    funext key
    split
    · rfl
    · rw [toOption_bind, toOption_bind, toOption_valueOf (keyPath path k) (keyPath path' k) v]
      congr 1
      funext value
      exact toOption_entriesFrom path path' rest ((key, value) :: before)

end

end Place

/-! ## Frames -/

/-- A step from a collection to what is in it. -/
inductive Step where
  | key (name : String)
  | item (index : Nat)
deriving DecidableEq, Repr

/-- What stands around a node in the collection that it is in. -/
inductive Node.Frame where
  | entry (tag : Option String) (before : List (Node × Node)) (key : Node)
    (after : List (Node × Node))
  | item (tag : Option String) (before after : List Node)

/-- What stands around a value in the collection that it is in. -/
inductive Value.Frame where
  | entry (tag : Option String) (before : List (Value × Value)) (key : Value)
    (after : List (Value × Value))
  | item (tag : Option String) (before after : List Value)

namespace Node

/-- The collection of a frame with a node in it. -/
def Frame.put (n : Node) : Frame → Node
  | entry tag before key after => .mapping tag (before ++ (key, n) :: after)
  | item tag before after => .sequence tag (before ++ n :: after)

/-- A node in frames, the outermost first. -/
def within (frames : List Frame) (n : Node) : Node := frames.foldr (fun f m => f.put m) n

/-- Whether a frame is one step around. -/
inductive Frame.Leads : Frame → Step → Prop
  | entry (tag : Option String) (before : List (Node × Node)) (keyTag : Option String)
    (style : Style) (name : String) (after : List (Node × Node)) :
    Leads (.entry tag before (.scalar keyTag style name) after) (.key name)
  | item (tag : Option String) (before after : List Node) :
    Leads (.item tag before after) (.item before.length)

end Node

namespace Value

/-- The collection of a frame with a value in it. -/
def Frame.put (v : Value) : Frame → Value
  | entry tag before key after => Place.withVariant tag (.map (before ++ (key, v) :: after))
  | item tag before after => Place.withVariant tag (.seq (before ++ v :: after))

/-- A value in frames, the outermost first. -/
def within (frames : List Frame) (v : Value) : Value := frames.foldr (fun f w => f.put w) v

/-- Whether a frame is one step around. -/
inductive Frame.Leads : Frame → Step → Prop
  | entry (tag : Option String) (before : List (Value × Value)) {key : Value} {name : String}
    (after : List (Value × Value)) : key.untagged = .str name →
    Leads (.entry tag before key after) (.key name)
  | item (tag : Option String) (before after : List Value) :
    Leads (.item tag before after) (.item before.length)

end Value

/-- Whether a text is a text in whatever way it is written as a scalar. -/
def Scalar.isWord (text : String) : Bool :=
  !(text.isEmpty || isNullWord text) && (readBool? text).isNone && (readInt? text).isNone &&
    (readNumber? text).isNone

/-- Whether the key of a step is a text in whatever way it is written. -/
def Step.IsWord : Step → Prop
  | key name => Scalar.isWord name = true
  | item _ => True

namespace Place

theorem untagged_withVariant (tag : Option String) (v : Value) :
    (withVariant tag v).untagged = v.untagged := by
  unfold withVariant
  split
  · rw [Value.untagged]
  · rfl

theorem ofPlain_of_isWord {text : String} (h : Scalar.isWord text = true) :
    Scalar.ofPlain text = .text text := by
  simp only [Scalar.isWord, Bool.and_eq_true, Bool.not_eq_true', Option.isNone_iff_eq_none] at h
  obtain ⟨⟨⟨hempty, hbool⟩, hint⟩, hnumber⟩ := h
  simp [Scalar.ofPlain, hempty, hbool, hint, hnumber]

/-- A scalar that is a word stands for its text, if for anything. -/
theorem untagged_of_isWord {text : String} (h : Scalar.isWord text = true) {path : String}
    {tag : Option String} {style : Style} {v : Value}
    (hv : valueOf path (.scalar tag style text) = .ok v) : v.untagged = .str text := by
  have hplain := ofPlain_of_isWord h
  simp only [Scalar.isWord, Bool.and_eq_true, Bool.not_eq_true', Bool.or_eq_false_iff,
    Option.isNone_iff_eq_none] at h
  obtain ⟨⟨⟨⟨-, hnull⟩, hbool⟩, hint⟩, hnumber⟩ := h
  have htext (tag : Option String) {s : Scalar} (hs : Scalar.ofTagged tag style text = .ok s) :
      s = .text text := by
    unfold Scalar.ofTagged at hs
    simp only [hnull, hbool, hint, hnumber, hplain, Bool.false_eq_true, if_false, ite_self] at hs
    split at hs
    · -- A tag that asks for another kind is refused.
      split_ifs at hs <;> first | exact (Except.ok.inj hs).symm | cases hs
    · exact (Except.ok.inj hs).symm
  simp only [valueOf] at hv
  split at hv
  · rename_i w hw
    obtain rfl := Except.ok.inj hv
    rw [untagged_withVariant]
    cases hs : Scalar.ofTagged (if (variantTag? tag).isSome then none else tag) style text with
    | error f =>
      rw [hs] at hw
      cases hw
    | ok s =>
      rw [hs, htext _ hs] at hw
      obtain rfl := Except.ok.inj hw
      rfl
  · cases hv

/-! ## Reading what is in frames -/

theorem entriesFrom_append (path : String) (rest : List (Node × Node)) :
    ∀ (entries : List (Node × Node)) (before : List (Value × Value)),
      entriesFrom path (entries ++ rest) before =
        entriesFrom path entries before >>= fun l => entriesFrom path rest l.reverse
  | [], before => by simp [entriesFrom, bind, Except.bind]
  | (k, v) :: entries, before => by
    simp only [List.cons_append, entriesFrom, bind_assoc]
    congr 1
    funext key
    split
    · rfl
    · simp only [bind_assoc]
      congr 1
      funext value
      exact entriesFrom_append path rest entries _

/-- Entries are read in the same way after others with the same keys. -/
theorem entriesFrom_cases (path : String) :
    ∀ (entries : List (Node × Node)) (keys : List Value),
      (∃ more, ∀ before : List (Value × Value), before.map Prod.fst = keys →
        entriesFrom path entries before = .ok (before.reverse ++ more)) ∨
      ∃ f, ∀ before : List (Value × Value), before.map Prod.fst = keys →
        entriesFrom path entries before = .error f
  | [], keys => Or.inl ⟨[], fun before _ => by rw [entriesFrom, List.append_nil]⟩
  | (k, v) :: rest, keys => by
    have hany (key : Value) (before : List (Value × Value)) (hkeys : before.map Prod.fst = keys) :
        before.any (key.same ·.1) = keys.any key.same := by
      rw [← hkeys, List.any_map]
      rfl
    simp only [entriesFrom]
    cases hk : valueOf path k with
    | error f => exact Or.inr ⟨f, fun _ _ => rfl⟩
    | ok key =>
      cases hsame : keys.any key.same with
      | true =>
        refine Or.inr ⟨.mismatch none key.duplicateMessage, fun before hkeys => ?_⟩
        change (if before.any (key.same ·.1) then _ else _) = _
        rw [if_pos (by rw [hany key before hkeys, hsame])]
        rfl
      | false =>
        have hread (before : List (Value × Value)) (hkeys : before.map Prod.fst = keys) :
            (Except.ok key >>= fun key =>
              if before.any (key.same ·.1) then mismatch key.duplicateMessage
              else valueOf (keyPath path k) v >>= fun value =>
                entriesFrom path rest ((key, value) :: before)) =
            valueOf (keyPath path k) v >>= fun value =>
              entriesFrom path rest ((key, value) :: before) := by
          change (if before.any (key.same ·.1) then _ else _) = _
          rw [if_neg (by rw [hany key before hkeys, hsame]; exact Bool.false_ne_true)]
        cases hv : valueOf (keyPath path k) v with
        | error f =>
          refine Or.inr ⟨f, fun before hkeys => ?_⟩
          rw [hv] at hread
          exact hread before hkeys
        | ok value =>
          rw [hv] at hread
          rcases entriesFrom_cases path rest (key :: keys) with ⟨more, hmore⟩ | ⟨f, hf⟩
          · refine Or.inl ⟨(key, value) :: more, fun before hkeys => ?_⟩
            have hrest := hmore ((key, value) :: before) (by rw [List.map_cons, hkeys])
            rw [List.reverse_cons, List.append_assoc] at hrest
            exact (hread before hkeys).trans hrest
          · refine Or.inr ⟨f, fun before hkeys => ?_⟩
            exact (hread before hkeys).trans (hf _ (by rw [List.map_cons, hkeys]))

theorem itemsFrom_append (path : String) (rest : List Node) :
    ∀ (items : List Node) (index : Nat),
      itemsFrom path index (items ++ rest) =
        itemsFrom path index items >>= fun l =>
          (itemsFrom path (index + items.length) rest).map (l ++ ·)
  | [], index => by
    simp only [List.nil_append, itemsFrom, List.length_nil, Nat.add_zero]
    change _ = Except.map id _
    cases itemsFrom path index rest <;> rfl
  | n :: items, index => by
    have hlength : index + (n :: items).length = index + 1 + items.length := by
      rw [List.length_cons]
      omega
    simp only [List.cons_append, itemsFrom, bind_assoc, hlength]
    congr 1
    funext v
    rw [itemsFrom_append path rest items (index + 1)]
    cases itemsFrom path (index + 1) items with
    | error f => rfl
    | ok l =>
      cases itemsFrom path (index + 1 + items.length) rest <;> rfl

theorem length_itemsFrom {path : String} :
    ∀ {items : List Node} {index : Nat} {l : List Value},
      itemsFrom path index items = .ok l → l.length = items.length
  | [], index, l, h => by
    rw [itemsFrom] at h
    obtain rfl := Except.ok.inj h
    rfl
  | n :: items, index, l, h => by
    rw [itemsFrom] at h
    cases hn : valueOf (itemPath path index) n with
    | error f => rw [hn] at h; cases h
    | ok v =>
      cases hrest : itemsFrom path (index + 1) items with
      | error f => rw [hn, hrest] at h; cases h
      | ok l' =>
        rw [hn, hrest] at h
        obtain rfl := Except.ok.inj h
        rw [List.length_cons, List.length_cons, length_itemsFrom hrest]

/-- Whether a node stands for a value under every path. -/
def StandsFor (n : Node) (v : Value) : Prop := ∀ path, valueOf path n = .ok v

/-- The entry of a mapping is read after the entries before it, or there is a fault in these. -/
theorem valueOf_entry (path : String) (tag : Option String) (before : List (Node × Node))
    (key : Node) (after : List (Node × Node)) :
    (∃ f, ∀ n, valueOf path (.mapping tag (before ++ (key, n) :: after)) = .error f) ∨
    ∃ (l : List (Value × Value)) (key' : Value), valueOf path key = .ok key' ∧
      ∀ n, valueOf path (.mapping tag (before ++ (key, n) :: after)) =
        ((valueOf (keyPath path key) n >>= fun v =>
          entriesFrom path after ((key', v) :: l.reverse)).map
            fun l => withVariant tag (.map l)).mapError (·.at_ path) := by
  simp only [valueOf_mapping, entriesFrom_append]
  cases hbefore : entriesFrom path before [] with
  | error f => exact Or.inl ⟨f.at_ path, fun _ => rfl⟩
  | ok l =>
    cases hkey : valueOf path key with
    | error f =>
      refine Or.inl ⟨f.at_ path, fun n => ?_⟩
      simp only [bind, Except.bind, entriesFrom, hkey]
      rfl
    | ok key' =>
      cases hsame : l.reverse.any (key'.same ·.1) with
      | true =>
        refine Or.inl ⟨(Fault.mismatch none key'.duplicateMessage).at_ path, fun n => ?_⟩
        simp only [bind, Except.bind, entriesFrom, hkey, hsame, if_true]
        rfl
      | false =>
        refine Or.inr ⟨l, key', rfl, fun n => ?_⟩
        simp only [bind, Except.bind, entriesFrom, hkey, hsame, Bool.false_eq_true, if_false]

/-- The item of a sequence is read after the items before it, or there is a fault in these. -/
theorem valueOf_item (path : String) (tag : Option String) (before after : List Node) :
    (∃ f, ∀ n, valueOf path (.sequence tag (before ++ n :: after)) = .error f) ∨
    ∃ l : List Value, l.length = before.length ∧
      ∀ n, valueOf path (.sequence tag (before ++ n :: after)) =
        ((valueOf (itemPath path before.length) n >>= fun v =>
          (itemsFrom path (before.length + 1) after).map (v :: ·)).map
            fun l' => withVariant tag (.seq (l ++ l'))).mapError (·.at_ path) := by
  simp only [valueOf_sequence, itemsFrom_append, Nat.zero_add]
  cases hbefore : itemsFrom path 0 before with
  | error f => exact Or.inl ⟨f.at_ path, fun _ => rfl⟩
  | ok l =>
    refine Or.inr ⟨l, length_itemsFrom hbefore, fun n => ?_⟩
    simp only [bind, Except.bind, itemsFrom]
    cases valueOf (itemPath path before.length) n with
    | error f => rfl
    | ok v => cases itemsFrom path (before.length + 1) after <;> rfl

/-- What is around a node is read in the same way whatever value the node stands for. -/
theorem valueOf_within {frames : List Node.Frame} {steps : List Step}
    (h : List.Forall₂ Node.Frame.Leads frames steps) (hwords : ∀ s ∈ steps, s.IsWord)
    (path : String) :
    (∃ around : List Value.Frame, List.Forall₂ Value.Frame.Leads around steps ∧
      ∀ n v, StandsFor n v → valueOf path (n.within frames) = .ok (v.within around)) ∨
    ∃ f, ∀ n v, StandsFor n v → valueOf path (n.within frames) = .error f := by
  induction h generalizing path with
  | nil => exact Or.inl ⟨[], .nil, fun _ _ h => h path⟩
  | @cons frame step frames steps hframe _ ih =>
    obtain ⟨hword, hrest⟩ := List.forall_mem_cons.mp hwords
    cases hframe with
    | entry tag before keyTag style name after =>
      rcases valueOf_entry path tag before (.scalar keyTag style name) after with
        ⟨f, hf⟩ | ⟨l, key, hkey, hentry⟩
      · exact Or.inr ⟨f, fun n _ _ => hf (n.within frames)⟩
      rcases ih hrest (keyPath path (.scalar keyTag style name)) with
        ⟨around, haround, hread⟩ | ⟨f, hf⟩
      · rcases entriesFrom_cases path after (key :: l.reverse.map Prod.fst) with
          ⟨more, hmore⟩ | ⟨f, hf⟩
        · refine Or.inl ⟨.entry tag l key more :: around,
            .cons (.entry tag l more (untagged_of_isWord hword hkey)) haround, fun n v hv => ?_⟩
          have hall := hmore ((key, v.within around) :: l.reverse) rfl
          rw [List.reverse_cons, List.reverse_reverse, List.append_assoc] at hall
          refine (hentry (n.within frames)).trans ?_
          rw [hread n v hv]
          exact congrArg (fun r : Except Fault (List (Value × Value)) =>
            (r.map fun l => withVariant tag (.map l)).mapError (·.at_ path)) hall
        · refine Or.inr ⟨f.at_ path, fun n v hv => (hentry (n.within frames)).trans ?_⟩
          rw [hread n v hv]
          exact congrArg (fun r : Except Fault (List (Value × Value)) =>
            (r.map fun l => withVariant tag (.map l)).mapError (·.at_ path))
            (hf ((key, v.within around) :: l.reverse) rfl)
      · refine Or.inr ⟨f.at_ path, fun n v hv => (hentry (n.within frames)).trans ?_⟩
        rw [hf n v hv]
        rfl
    | item tag before after =>
      rcases valueOf_item path tag before after with ⟨f, hf⟩ | ⟨l, hlength, hitem⟩
      · exact Or.inr ⟨f, fun n _ _ => hf (n.within frames)⟩
      rcases ih hrest (itemPath path before.length) with ⟨around, haround, hread⟩ | ⟨f, hf⟩
      · cases hafter : itemsFrom path (before.length + 1) after with
        | error f =>
          refine Or.inr ⟨f.at_ path, fun n v hv => (hitem (n.within frames)).trans ?_⟩
          rw [hread n v hv, hafter]
          rfl
        | ok l' =>
          refine Or.inl ⟨.item tag l l' :: around, .cons (hlength ▸ .item tag l l') haround,
            fun n v hv => (hitem (n.within frames)).trans ?_⟩
          rw [hread n v hv, hafter]
          rfl
      · refine Or.inr ⟨f.at_ path, fun n v hv => (hitem (n.within frames)).trans ?_⟩
        rw [hf n v hv]
        rfl

end Place

end Scaffold.Yaml
