import Scaffold.Yaml.Decode

/-!
# What a text changes in a record

The fields of a record are kept apart : what one of them stores is not touched by the others
(`Slot`), so it may as well be stored at the end (`fields_change`). A field that stands nowhere
is left as it was (`Slot.get_eq`), and an entry that says the same may be left out
(`Slot.fields_entry_eq`).

Where a text can stand in many ways, such as between quotes or as a number, the record is the
same for all ways that spell the same text, and holds this text (`Carries`). It goes from a field
to the record (`Carries.record`) and from an item to the list (`Carries.list`).
-/

namespace Scaffold.Yaml.Source

variable {σ ρ α β : Type} [Source σ]

/-! ## Fields one after the other -/

theorem fields_append (s : σ) (known : String → Option (Field σ ρ)) (rest : List (σ × σ)) :
    ∀ (entries : List (σ × σ)) (seen : List String) (r : ρ),
      fields s known (entries ++ rest) seen r =
        fields s known entries seen r >>= fun x => fields s known rest x.2 x.1
  | [], _, _ => rfl
  | e :: entries, seen, r => by
    simp only [List.cons_append, fields, bind_assoc]
    congr 1
    funext name
    split
    · split
      · rfl
      · simp only [bind_assoc, fields_append s known rest entries]
    · simp only [bind_assoc, fields_append s known rest entries]

/-- Whether a change of the record goes past every field but one. -/
def GoesPast (known : String → Option (Field σ ρ)) (name : String) (change : ρ → ρ) : Prop :=
  ∀ other read, known other = some read → other ≠ name →
    ∀ r s, read (change r) s = (read r s).map change

omit [Source σ] in
theorem field_change {decode : σ → Except Fault β} {store : ρ → β → ρ} {read : Field σ ρ}
    {change : ρ → ρ} (hread : field decode store = some read)
    (hstore : ∀ r b, store (change r) b = change (store r b)) (r : ρ) (s : σ) :
    read (change r) s = (read r s).map change := by
  obtain rfl := Option.some.inj hread
  cases hs : decode s with
  | error f => simp [hs, bind, Except.bind, Except.map]
  | ok b => simp [hs, bind, Except.bind, Except.map, pure, Except.pure, hstore]

/-- A change of a field that is not read any more can wait till the others are read. -/
theorem fields_change {s : σ} {known : String → Option (Field σ ρ)} {name : String}
    {change : ρ → ρ} (h : GoesPast known name change) :
    ∀ (entries : List (σ × σ)) (seen : List String) (r : ρ),
      (name ∈ seen ∨ ∀ e ∈ entries, text "field identifier" e.1 ≠ .ok name) →
      fields s known entries seen (change r) =
        (fields s known entries seen r).map fun x => (change x.1, x.2)
  | [], _, _, _ => rfl
  | e :: entries, seen, r, hname => by
    rw [fields, fields]
    cases hkey : text "field identifier" e.1 with
    | error f => rfl
    | ok other =>
      have hrest : name ∈ seen ∨ ∀ e ∈ entries, text "field identifier" e.1 ≠ .ok name :=
        hname.imp_right fun h => (List.forall_mem_cons.mp h).2
      simp only [bind, Except.bind]
      cases hknown : known other with
      | none =>
        cases skip (under s e) with
        | error f => rfl
        | ok _ => exact fields_change h entries seen r hrest
      | some read =>
        cases hseen : seen.contains other with
        | true => rfl
        | false =>
          have hne : other ≠ name := by
            rintro rfl
            rcases hname with hmem | hnone
            · rw [List.contains_iff_mem.mpr hmem] at hseen
              cases hseen
            · exact hnone e List.mem_cons_self hkey
          simp only [Bool.false_eq_true, if_false]
          rw [h other read hknown hne]
          cases read r (under s e) with
          | error f => rfl
          | ok r' =>
            exact fields_change h entries (other :: seen) r'
              (hrest.imp_left (List.mem_cons_of_mem other))

/-- A field that is not read any more may count as read or not. -/
theorem fields_seen {s : σ} {known : String → Option (Field σ ρ)} {name : String} :
    ∀ (entries : List (σ × σ)) {seen seen' : List String} (r : ρ),
      (∀ other, other ≠ name → seen.contains other = seen'.contains other) →
      (∀ e ∈ entries, text "field identifier" e.1 ≠ .ok name) →
      (fields s known entries seen r).map Prod.fst =
        (fields s known entries seen' r).map Prod.fst
  | [], _, _, _, _, _ => rfl
  | e :: entries, seen, seen', r, hseen, hnone => by
    obtain ⟨hkey, hrest⟩ := List.forall_mem_cons.mp hnone
    rw [fields, fields]
    cases hother : text "field identifier" e.1 with
    | error f => rfl
    | ok other =>
      have hne : other ≠ name := fun h => hkey (h ▸ hother)
      simp only [bind, Except.bind]
      cases known other with
      | none =>
        cases skip (under s e) with
        | error f => rfl
        | ok _ => exact fields_seen entries r hseen hrest
      | some read =>
        simp only [hseen other hne]
        cases seen'.contains other with
        | true => rfl
        | false =>
          simp only [Bool.false_eq_true, if_false]
          cases read r (under s e) with
          | error f => rfl
          | ok r' =>
            refine fields_seen entries r' (fun o ho => ?_) hrest
            rw [List.contains_cons, List.contains_cons, hseen o ho]

/-- A record of which all entries are read, if every field is there that is needed. -/
def complete (needed : List String) (y : ρ × List String) : Except Fault ρ :=
  match needed.find? (!y.2.contains ·) with
  | some missing => mismatch s!"missing field `{missing}`"
  | none => .ok y.1

theorem record_eq (title : String) (needed : List String)
    (known : String → Option (Field σ ρ)) (start : ρ) (s : σ) :
    record title needed known start s =
      locate s (entries s!"struct {title}" s >>= fun es =>
        fields s known es [] start >>= complete needed) := rfl

/-- A record in which no field has to stand. -/
theorem record_nil (title : String) (known : String → Option (Field σ ρ)) (start : ρ) (s : σ) :
    record title [] known start s =
      locate s (entries s!"struct {title}" s >>= fun es =>
        (fields s known es [] start).map Prod.fst) := rfl

/-- What stands under no name is not read. -/
theorem not_mem_seen {s : σ} {known : String → Option (Field σ ρ)} {name : String} :
    ∀ {entries : List (σ × σ)} {seen seen' : List String} {r r' : ρ},
      (∀ e ∈ entries, text "field identifier" e.1 ≠ .ok name) → name ∉ seen →
      fields s known entries seen r = .ok (r', seen') → name ∉ seen'
  | [], _, _, _, _, _, hseen, h => by
    obtain ⟨-, rfl⟩ := Prod.mk.inj (Except.ok.inj h)
    exact hseen
  | e :: entries, seen, seen', r, r', hnone, hseen, h => by
    obtain ⟨hkey, hrest⟩ := List.forall_mem_cons.mp hnone
    rw [fields] at h
    cases hother : text "field identifier" e.1 with
    | error f => rw [hother] at h; cases h
    | ok other =>
      have hne : name ≠ other := fun heq => hkey (heq ▸ hother)
      rw [hother] at h
      simp only [bind, Except.bind] at h
      cases hknown : known other with
      | none =>
        rw [hknown] at h
        cases hskip : skip (under s e) with
        | error f => rw [hskip] at h; cases h
        | ok _ =>
          rw [hskip] at h
          exact not_mem_seen hrest hseen h
      | some read =>
        rw [hknown] at h
        cases hdup : seen.contains other with
        | true => rw [hdup] at h; cases h
        | false =>
          simp only [hdup, Bool.false_eq_true, if_false] at h
          cases hread : read r (under s e) with
          | error f => rw [hread] at h; cases h
          | ok r₁ =>
            rw [hread] at h
            exact not_mem_seen hrest (List.not_mem_cons_of_ne_of_not_mem hne hseen) h

/-! ## Fields that are kept apart -/

/-- Whether a name stands for a field of its own. -/
structure Slot (fields : String → Option (Field σ ρ)) (name : String)
    (decode : σ → Except Fault α) (store : ρ → α → ρ) (get : ρ → α) : Prop where
  known : fields name = field decode store
  get_store : ∀ r a, get (store r a) = a
  store_get : ∀ r, store r (get r) = r
  goesPast : ∀ a, GoesPast fields name (store · a)

/-- What stands under a name is read after the fields before it, and then it may wait till the
fields after it are read. -/
theorem Slot.fields_entry {known : String → Option (Field σ ρ)} {name : String}
    {decode : σ → Except Fault α} {store : ρ → α → ρ} {get : ρ → α}
    (hslot : Slot known name decode store get) (s : σ) {key : σ}
    (hkey : text "field identifier" key = .ok name) (before after : List (σ × σ)) (start : ρ) :
    (∃ f, ∀ e, fields s known (before ++ (key, e) :: after) [] start = .error f) ∨
    ∃ rest : Except Fault (ρ × List String),
      ∀ e, fields s known (before ++ (key, e) :: after) [] start =
        decode (under s (key, e)) >>= fun a => rest.map fun y => (store y.1 a, y.2) := by
  simp only [fields_append]
  cases fields s known before [] start with
  | error f => exact Or.inl ⟨f, fun _ => rfl⟩
  | ok y =>
    obtain ⟨r, seen⟩ := y
    have hone (e : σ) : fields s known ((key, e) :: after) seen r =
        if seen.contains name then mismatch s!"duplicate field `{name}`"
        else decode (under s (key, e)) >>= fun a =>
          fields s known after (name :: seen) (store r a) := by
      rw [fields, hkey]
      simp only [bind, Except.bind, hslot.known, field]
      split
      · rfl
      · cases decode (under s (key, e)) <;> rfl
    cases hseen : seen.contains name with
    | true => exact Or.inl ⟨_, fun e => (hone e).trans (by rw [hseen]; rfl)⟩
    | false =>
      refine Or.inr ⟨fields s known after (name :: seen) r, fun e => (hone e).trans ?_⟩
      rw [hseen, if_neg Bool.false_ne_true]
      congr 1
      funext a
      exact fields_change (hslot.goesPast a) after _ r (Or.inl List.mem_cons_self)

/-- A field that stands nowhere is left as it was. -/
theorem Slot.get_eq {known : String → Option (Field σ ρ)} {name : String}
    {decode : σ → Except Fault α} {store : ρ → α → ρ} {get : ρ → α}
    (hslot : Slot known name decode store get) {s : σ} {entries : List (σ × σ)}
    (hnone : ∀ e ∈ entries, text "field identifier" e.1 ≠ .ok name) {start : ρ}
    {seen : List String} {r : ρ} {seen' : List String}
    (h : fields s known entries seen start = .ok (r, seen')) : get r = get start := by
  have hchange := fields_change (s := s) (hslot.goesPast (get start)) entries seen start
    (Or.inr hnone)
  rw [hslot.store_get, h] at hchange
  rw [(Prod.mk.inj (Except.ok.inj hchange)).1, hslot.get_store]

/-- An entry that says what holds anyway may as well be left out. -/
theorem Slot.fields_entry_eq {known : String → Option (Field σ ρ)} {name : String}
    {decode : σ → Except Fault α} {store : ρ → α → ρ} {get : ρ → α}
    (hslot : Slot known name decode store get) {s key e : σ}
    (hkey : text "field identifier" key = .ok name) {before after : List (σ × σ)}
    (hbefore : ∀ e ∈ before, text "field identifier" e.1 ≠ .ok name)
    (hafter : ∀ e ∈ after, text "field identifier" e.1 ≠ .ok name) {start : ρ}
    (hdecode : decode (under s (key, e)) = .ok (get start)) :
    (fields s known (before ++ (key, e) :: after) [] start).map Prod.fst =
      (fields s known (before ++ after) [] start).map Prod.fst := by
  rw [fields_append, fields_append]
  cases hread : fields s known before [] start with
  | error f => rfl
  | ok y =>
    obtain ⟨r, seen⟩ := y
    have hseen : seen.contains name = false := by
      simpa using not_mem_seen hbefore List.not_mem_nil hread
    have hone : fields s known ((key, e) :: after) seen r =
        fields s known after (name :: seen) r := by
      rw [fields, hkey]
      simp only [bind, Except.bind, hslot.known, field, hseen, hdecode, Bool.false_eq_true,
        if_false]
      rw [← hslot.get_eq hbefore hread]
      exact congrArg _ (hslot.store_get r)
    change (fields s known ((key, e) :: after) seen r).map Prod.fst = _
    rw [hone]
    refine fields_seen after r (fun other hne => ?_) hafter
    simp [hne]

/-! ## Texts that are carried over -/

omit [Source σ] in
theorem length_of_mapM {decode : σ → Except Fault α} :
    ∀ {items : List σ} {l : List α}, items.mapM decode = .ok l → l.length = items.length
  | [], l, h => by
    obtain rfl := Except.ok.inj h
    rfl
  | s :: items, l, h => by
    rw [List.mapM_cons] at h
    cases hs : decode s with
    | error f => rw [hs] at h; cases h
    | ok a =>
      cases hrest : items.mapM decode with
      | error f => rw [hs, hrest] at h; cases h
      | ok l' =>
        rw [hs, hrest] at h
        obtain rfl := Except.ok.inj h
        rw [List.length_cons, List.length_cons, length_of_mapM hrest]

section

variable {τ : Type} {spells : τ → String → Prop}

/-- Whether a result is the same for all that spells the same text, and holds this text, or is one
fault for all. -/
inductive Carries (spells : τ → String → Prop) (result : τ → Except Fault α)
    (get : α → Option String) : Prop
  | holds (make : String → α) : (∀ x t, spells x t → result x = .ok (make t)) →
    (∀ t, get (make t) = some t) → Carries spells result get
  | fails (f : Fault) : (∀ x t, spells x t → result x = .error f) → Carries spells result get

namespace Carries

variable {result result' : τ → Except Fault α} {get : α → Option String}

theorem congr (h : Carries spells result get)
    (heq : ∀ x t, spells x t → result' x = result x) : Carries spells result' get := by
  cases h with
  | holds make hmake hget =>
    exact .holds make (fun x t hx => (heq x t hx).trans (hmake x t hx)) hget
  | fails f hf => exact .fails f fun x t hx => (heq x t hx).trans (hf x t hx)

/-- What holds a text holds it after a pass over it that keeps the text and may only fail in
one way. -/
theorem bind {next : α → Except Fault β} {get' : β → Option String}
    (h : Carries spells result get)
    (hnext : (∃ g : α → β, (∀ a, next a = .ok (g a)) ∧ ∀ a, get' (g a) = get a) ∨
      ∃ f, ∀ a, next a = .error f) :
    Carries spells (fun x => result x >>= next) get' := by
  cases h with
  | fails f hf => exact .fails f fun x t hx => by rw [hf x t hx]; rfl
  | holds make hmake hget =>
    rcases hnext with ⟨g, hg, hkeep⟩ | ⟨f, hf⟩
    · refine .holds (g ∘ make) (fun x t hx => ?_) fun t => (hkeep _).trans (hget t)
      rw [hmake x t hx]
      exact hg _
    · refine .fails f fun x t hx => ?_
      rw [hmake x t hx]
      exact hf _

theorem mapError (note : Fault → Fault) (h : Carries spells result get) :
    Carries spells (fun x => (result x).mapError note) get := by
  cases h with
  | holds make hmake hget =>
    exact .holds make (fun x t hx => by rw [hmake x t hx]; rfl) hget
  | fails f hf => exact .fails (note f) fun x t hx => by rw [hf x t hx]; rfl

/-- Where one item of a list holds a text, the list holds it. -/
theorem mapM {σ : Type} {decode : σ → Except Fault α} {item : τ → σ} {holds : α → Option String}
    (h : Carries spells (fun x => decode (item x)) holds) (before after : List σ) :
    Carries spells (fun x => (before ++ item x :: after).mapM decode)
      fun l => l[before.length]?.bind holds := by
  simp only [List.mapM_append, List.mapM_cons]
  cases hbefore : before.mapM decode with
  | error f => exact .fails f fun _ _ _ => rfl
  | ok l =>
    have hlength : l.length = before.length := length_of_mapM hbefore
    simp only [bind_assoc, pure_bind]
    change Carries spells (fun x => decode (item x) >>= fun a => _) _
    refine h.bind ?_
    cases after.mapM decode with
    | error f => exact Or.inr ⟨f, fun _ => rfl⟩
    | ok l' => exact Or.inl ⟨fun a => l ++ a :: l', fun _ => rfl, fun a => by simp [← hlength]⟩

end Carries

/-- Whether sources stand in one place, as far as what is in them can tell. -/
structure InOnePlace (s : τ → σ) (place : σ) (note : Fault → Fault) : Prop where
  under : ∀ x e, under (s x) e = under place e
  locate : ∀ x {γ : Type} (r : Except Fault γ), locate (s x) r = r.mapError note

theorem fields_congr {s place : σ} (h : ∀ e, under s e = under place e)
    (known : String → Option (Field σ ρ)) :
    ∀ (entries : List (σ × σ)) (seen : List String) (r : ρ),
      fields s known entries seen r = fields place known entries seen r
  | [], _, _ => rfl
  | e :: entries, seen, r => by
    simp only [fields, h, fields_congr h known entries]

namespace Carries

variable {s : τ → σ} {place : σ} {note : Fault → Fault}

/-- A record holds the text that its field holds. -/
theorem record (hs : InOnePlace s place note) {known : String → Option (Field σ ρ)}
    {name : String} {decode : σ → Except Fault α} {store : ρ → α → ρ} {get : ρ → α}
    (hslot : Slot known name decode store get) {title : String} {needed : List String} {start : ρ}
    {before after : List (σ × σ)} {key : σ} {field : τ → σ}
    (hentries : ∀ x, entries s!"struct {title}" (s x) = .ok (before ++ (key, field x) :: after))
    (hkey : text "field identifier" key = .ok name) {holds : α → Option String}
    (h : Carries spells (fun x => decode (under place (key, field x))) holds) :
    Carries spells (fun x => Source.record title needed known start (s x))
      fun r => holds (get r) := by
  have hrun (x : τ) : Source.record title needed known start (s x) =
      (fields place known (before ++ (key, field x) :: after) [] start >>=
        complete needed).mapError note := by
    rw [record_eq, hs.locate, hentries x]
    change (fields (s x) known _ [] start >>= _).mapError note = _
    rw [fields_congr (hs.under x)]
  simp only [hrun]
  refine mapError note ?_
  rcases hslot.fields_entry place hkey before after start with ⟨f, hf⟩ | ⟨rest, hrest⟩
  · exact .fails f fun x _ _ => by rw [hf]; rfl
  simp only [hrest, bind_assoc]
  refine h.bind ?_
  cases rest with
  | error f => exact Or.inr ⟨f, fun _ => rfl⟩
  | ok y =>
    cases hneeded : needed.find? (!y.2.contains ·) with
    | some missing =>
      refine Or.inr ⟨.mismatch none s!"missing field `{missing}`", fun a => ?_⟩
      change complete needed (store y.1 a, y.2) = _
      rw [complete, hneeded]
      rfl
    | none =>
      refine Or.inl ⟨store y.1, fun a => ?_, fun a => congrArg holds (hslot.get_store y.1 a)⟩
      change complete needed (store y.1 a, y.2) = _
      rw [complete, hneeded]

/-- A list holds the text that its item holds. -/
theorem list (hs : InOnePlace s place note) {decode : σ → Except Fault α} {before after : List σ}
    {item : τ → σ} (hitems : ∀ x, items (s x) = .ok (before ++ item x :: after))
    {holds : α → Option String} (h : Carries spells (fun x => decode (item x)) holds) :
    Carries spells (fun x => Source.list decode (s x)) fun l => l[before.length]?.bind holds := by
  have hrun (x : τ) : Source.list decode (s x) =
      ((before ++ item x :: after).mapM decode).mapError note := by
    rw [Source.list, hs.locate, hitems x]
    rfl
  simp only [hrun]
  exact mapError note (h.mapM before after)

end Carries

end

end Scaffold.Yaml.Source
