import Mathlib.Data.List.Induction
import Mathlib.Data.List.TakeWhile
import Scaffold.Path
import Scaffold.Proofs.Text.Pieces

/-!
# The parts of a path

What a path says when it is extended, and when it is put together again from its parts. A name
or a double dot after a path is one more part (`parts_join`), and a path that is made of the
parts of another one has the same parts (`parts_ofParts`). So a path and the path above it
differ in the last part and in nothing else (`parent?_parts`).
-/

namespace Scaffold

namespace Path

/-! ## Names -/

/-- Whether a text is one name : it is not empty, it is no dot and no double dot, and no slash
is in it. -/
def IsName (name : String) : Prop := name ≠ "" ∧ name ≠ "." ∧ name ≠ ".." ∧ '/' ∉ name.toList

instance (name : String) : Decidable (IsName name) := inferInstanceAs (Decidable (_ ∧ _))

/-- Whether a part is a name or a double dot, which can stand anywhere in a path. -/
def Part.IsStep : Part → Prop
  | .up => True
  | .name n => IsName n
  | _ => False

theorem partOf?_name {n : String} (h : IsName n) : partOf? n.toList = some (.name n) := by
  obtain ⟨hne, hdot, hup, -⟩ := h
  unfold partOf?
  split
  · rename_i hn
    exact absurd (String.toList_eq_nil_iff.mp hn) hne
  · rename_i hn
    exact absurd (String.toList_inj.mp hn) hdot
  · rename_i hn
    exact absurd (String.toList_inj.mp hn) hup
  · rw [String.ofList_toList]

theorem isStep_of_partOf? {piece : List Char} {c : Part} (hs : '/' ∉ piece)
    (h : partOf? piece = some c) : c.IsStep := by
  unfold partOf? at h
  split at h
  · simp at h
  · simp at h
  · obtain rfl := Option.some.inj h
    trivial
  · rename_i hne hdot hup
    obtain rfl := Option.some.inj h
    refine ⟨fun hn => hne ?_, fun hn => hdot ?_, fun hn => hup ?_, ?_⟩
    · simpa using congrArg String.toList hn
    · simpa using congrArg String.toList hn
    · simpa using congrArg String.toList hn
    · rwa [String.toList_ofList]

theorem not_mem_text {c : Part} (h : c.IsStep) : '/' ∉ c.text.toList := by
  cases c with
  | up => decide
  | name n => exact h.2.2.2
  | root | here => exact h.elim

/-- A name or a double dot is read as it is written. -/
theorem partOf?_text {c : Part} (h : c.IsStep) : partOf? c.text.toList = some c := by
  cases c with
  | up => rfl
  | name n => exact partOf?_name h
  | root | here => exact h.elim

/-! ## A path and what follows it -/

/-- What a text says after its beginning. -/
def bodyOf (text : List Char) : List Part := (Text.pieces '/' text).filterMap partOf?

/-- What a text says by its beginning. -/
def startOf (text : List Char) : List Part :=
  match text with
  | '/' :: _ => [.root]
  | _ => if (Text.pieces '/' text).head? = some ['.'] then [.here] else []

theorem partsOf_eq (text : List Char) : partsOf text = startOf text ++ bodyOf text := rfl

theorem isStep_of_mem_bodyOf {text : List Char} {c : Part} (h : c ∈ bodyOf text) : c.IsStep := by
  obtain ⟨piece, hmem, hp⟩ := List.mem_filterMap.mp h
  exact isStep_of_partOf? (Text.not_mem_of_mem_pieces hmem) hp

theorem bodyOf_append_slash (a b : List Char) : bodyOf (a ++ '/' :: b) = bodyOf a ++ bodyOf b := by
  unfold bodyOf
  rw [Text.pieces_append_mark, List.filterMap_append]

theorem bodyOf_text {c : Part} (h : c.IsStep) : bodyOf c.text.toList = [c] := by
  rw [bodyOf, Text.pieces_of_not_mem (not_mem_text h)]
  simp [partOf?_text h]

theorem startOf_append_slash {a : List Char} (ha : a ≠ []) (b : List Char) :
    startOf (a ++ '/' :: b) = startOf a := by
  obtain ⟨c, a, rfl⟩ := List.exists_cons_of_ne_nil ha
  by_cases hc : c = '/'
  · subst hc
    rfl
  · obtain ⟨piece, more, hp⟩ := List.exists_cons_of_ne_nil (Text.pieces_ne_nil '/' (c :: a))
    have hp' := Text.pieces_append_mark '/' (c :: a) b
    rw [hp, List.cons_append, List.cons_append] at hp'
    simp [startOf, hc, hp, hp']

theorem partsOf_append_slash {a : List Char} (ha : a ≠ []) (b : List Char) :
    partsOf (a ++ '/' :: b) = partsOf a ++ bodyOf b := by
  rw [partsOf_eq, partsOf_eq, startOf_append_slash ha, bodyOf_append_slash, List.append_assoc]

/-- What follows a slash adds its own parts, also at the top. -/
theorem partsOf_append_of_slash (a b : List Char) :
    partsOf (a ++ ['/'] ++ b) = partsOf (a ++ ['/']) ++ bodyOf b := by
  by_cases ha : a = []
  · subst ha
    rw [List.nil_append, partsOf_eq, partsOf_eq, List.append_assoc]
    exact congrArg ([Part.root] ++ ·) (bodyOf_append_slash [] b)
  · rw [List.append_assoc, List.singleton_append, partsOf_append_slash ha,
      partsOf_append_slash ha]
    simp [bodyOf, Text.pieces, partOf?]

theorem startOf_text {c : Part} (h : c.IsStep) : startOf c.text.toList = [] := by
  have hp := Text.pieces_of_not_mem (not_mem_text h)
  have hs := not_mem_text h
  have ht := partOf?_text h
  unfold startOf
  split
  · rename_i hc
    simp [hc] at hs
  · rw [hp, if_neg]
    intro hd
    simp only [List.head?_cons, Option.some.injEq] at hd
    simp [hd, partOf?] at ht

theorem exists_eq_append_slash {text : String} (h : text.endsWith "/" = true) :
    ∃ before, text = before ++ "/" := by
  obtain ⟨before, hbefore⟩ := String.Slice.endsWith_string_iff.mp h
  rw [String.copy_toSlice] at hbefore
  exact ⟨String.ofList before, by simp [← String.toList_inj, ← hbefore]⟩

/-- How a path is extended : after a slash, which is only written if there is none. -/
theorem exists_toList_join (p : Path) {c : Part} (h : c.IsStep) :
    ∃ a, (p.join c.text).text.toList = a ++ c.text.toList ∧
      (p.text = "" ∧ a = [] ∨ p.text ≠ "" ∧ a = p.text.toList ++ ['/'] ∨
        a = p.text.toList ∧ ∃ b, a = b ++ ['/']) := by
  have hrel : c.text.startsWith "/" = false := by
    rw [String.startsWith_string_eq_false_iff]
    intro hpre
    exact not_mem_text h (hpre.subset (by decide))
  unfold join
  rw [hrel, if_neg Bool.false_ne_true]
  by_cases hempty : p.text = ""
  · exact ⟨[], by simp [hempty], Or.inl ⟨hempty, rfl⟩⟩
  · by_cases hend : p.text.endsWith "/" = true
    · obtain ⟨b, hb⟩ := exists_eq_append_slash hend
      have hlist : p.text.toList = b.toList ++ ['/'] := hb ▸ String.toList_append
      rw [if_pos (by simp [hend])]
      exact ⟨p.text.toList, String.toList_append, Or.inr (Or.inr ⟨rfl, b.toList, hlist⟩)⟩
    · rw [if_neg (by simp [hempty, hend])]
      refine ⟨p.text.toList ++ ['/'], ?_, Or.inr (Or.inl ⟨hempty, rfl⟩)⟩
      rw [String.toList_append, String.toList_append]
      rfl

/-- A name or a double dot after a path is one more part. -/
theorem parts_join (p : Path) {c : Part} (h : c.IsStep) :
    (p.join c.text).parts = p.parts ++ [c] := by
  obtain ⟨a, ha, hcases⟩ := exists_toList_join p h
  rw [parts, parts, ha]
  rcases hcases with ⟨hp, rfl⟩ | ⟨hp, rfl⟩ | ⟨rfl, b, hb⟩
  · rw [hp, List.nil_append, partsOf_eq, startOf_text h, bodyOf_text h]
    rfl
  · have hne : p.text.toList ≠ [] := fun hn => hp (String.toList_eq_nil_iff.mp hn)
    rw [List.append_assoc, List.singleton_append, partsOf_append_slash hne, bodyOf_text h]
  · rw [hb, partsOf_append_of_slash, bodyOf_text h]

/-! ## A path of some parts -/

/-- Whether parts can be those of a path : none but the first one is the top or a dot. -/
def AreParts (ps : List Part) : Prop :=
  ∃ start steps, ps = start ++ steps ∧ (start = [] ∨ start = [.root] ∨ start = [.here]) ∧
    ∀ c ∈ steps, c.IsStep

theorem areParts_parts (p : Path) : AreParts p.parts := by
  refine ⟨startOf p.text.toList, bodyOf p.text.toList, rfl, ?_, fun c => isStep_of_mem_bodyOf⟩
  unfold startOf
  split
  · exact Or.inr (Or.inl rfl)
  · split
    · exact Or.inr (Or.inr rfl)
    · exact Or.inl rfl

theorem AreParts.of_append {a b : List Part} (h : AreParts (a ++ b)) : AreParts a := by
  obtain ⟨start, steps, hab, hstart, hsteps⟩ := h
  rcases List.append_eq_append_iff.mp hab with ⟨c, rfl, rfl⟩ | ⟨c, rfl, rfl⟩
  · refine ⟨a, [], by simp, ?_, by simp⟩
    rcases hstart with hs | hs | hs
    · simp [List.append_eq_nil_iff.mp hs]
    · rcases List.append_eq_singleton_iff.mp hs with ⟨rfl, -⟩ | ⟨rfl, -⟩ <;> simp
    · rcases List.append_eq_singleton_iff.mp hs with ⟨rfl, -⟩ | ⟨rfl, -⟩ <;> simp
  · exact ⟨start, c, rfl, hstart, fun x hx => hsteps x (List.mem_append_left _ hx)⟩

/-- A path starts once, so what follows some of its parts are names and double dots. -/
theorem isStep_of_parts_append {p : Path} {ps rest : List Part} (h : p.parts = ps ++ rest)
    (hps : ps ≠ []) {c : Part} (hc : c ∈ rest) : c.IsStep := by
  obtain ⟨first, ps, rfl⟩ := List.exists_cons_of_ne_nil hps
  obtain ⟨start, steps, hparts, hstart, hsteps⟩ := areParts_parts p
  have hcons : first :: (ps ++ rest) = start ++ steps := h.symm.trans hparts
  have hin : c ∈ ps ++ rest := List.mem_append_right ps hc
  refine hsteps c ?_
  rcases hstart with rfl | rfl | rfl
  · rw [List.nil_append] at hcons
    exact hcons ▸ List.mem_cons_of_mem first hin
  · obtain rfl : ps ++ rest = steps := (List.cons.inj hcons).2
    exact hin
  · obtain rfl : ps ++ rest = steps := (List.cons.inj hcons).2
    exact hin

theorem ofParts_append (ps : List Part) (c : Part) :
    ofParts (ps ++ [c]) = (ofParts ps).join c.text := by
  rw [ofParts, List.foldl_append]
  rfl

theorem parts_ofParts_append {start : List Part} (hstart : (ofParts start).parts = start)
    (steps : List Part) (hsteps : ∀ c ∈ steps, c.IsStep) :
    (ofParts (start ++ steps)).parts = start ++ steps := by
  induction steps using List.reverseRecOn with
  | nil => rwa [List.append_nil]
  | append_singleton steps c ih =>
    have hc : c.IsStep := hsteps c (by simp)
    have ih := ih fun x hx => hsteps x (List.mem_append_left _ hx)
    rw [← List.append_assoc, ofParts_append, parts_join _ hc, ih]

/-- A path of the parts of a path has those parts. -/
theorem parts_ofParts {ps : List Part} (h : AreParts ps) : (ofParts ps).parts = ps := by
  obtain ⟨start, steps, rfl, hstart, hsteps⟩ := h
  rcases hstart with rfl | rfl | rfl <;> exact parts_ofParts_append (by decide +kernel) steps hsteps

/-- The path above one that ends in a name or in a double dot. -/
theorem parent?_eq {p : Path} {ps : List Part} {c : Part} (h : p.parts = ps ++ [c])
    (hc : c.IsStep) : p.parent? = some (ofParts ps) := by
  unfold parent?
  rw [h, List.reverse_append]
  cases c with
  | up | name n => simp
  | root | here => exact hc.elim

/-- The path above a path lacks its last part. -/
theorem exists_of_parent?_eq_some {p q : Path} (h : p.parent? = some q) :
    ∃ c, p.parts = q.parts ++ [c] := by
  unfold parent? at h
  split at h
  · cases h
  · cases h
  · rename_i c rest _ hrev
    obtain rfl := Option.some.inj h
    have hparts : p.parts = rest.reverse ++ [c] := by
      rw [← List.reverse_cons, ← hrev, List.reverse_reverse]
    have hrest : AreParts rest.reverse := .of_append (hparts ▸ areParts_parts p)
    exact ⟨c, by rw [hparts, parts_ofParts hrest]⟩

/-! ## Slashes at the end -/

theorem partsOf_append_slashes {a : List Char} (ha : a ≠ []) :
    ∀ slashes : List Char, (∀ c ∈ slashes, c = '/') → partsOf (a ++ slashes) = partsOf a
  | [], _ => by rw [List.append_nil]
  | c :: slashes, h => by
    obtain rfl : c = '/' := h c List.mem_cons_self
    have ih := partsOf_append_slashes (a := a ++ ['/']) (by simp) slashes
      fun c hc => h c (List.mem_cons_of_mem _ hc)
    rw [← List.append_cons] at ih
    rw [ih, partsOf_append_slash ha]
    simp [bodyOf, Text.pieces, partOf?]

/-- Slashes at the end of a path say nothing. -/
theorem parts_withoutSlash (p : Path) : p.withoutSlash.parts = p.parts := by
  have hsplit := List.takeWhile_append_dropWhile (p := (· = '/')) (l := p.text.toList.reverse)
  have hall : ∀ c ∈ (p.text.toList.reverse.takeWhile (· = '/')).reverse, c = '/' := fun c hc => by
    simpa using List.mem_takeWhile_imp (List.mem_reverse.mp hc)
  generalize hs : p.text.toList.reverse.takeWhile (· = '/') = slashes at hsplit hall
  have htext : p.text.toList =
      (p.text.toList.reverse.dropWhile (· = '/')).reverse ++ slashes.reverse := by
    rw [← List.reverse_append, hsplit, List.reverse_reverse]
  unfold withoutSlash
  split
  · rename_i hnil
    rw [hnil, List.nil_append] at htext
    split
    · rename_i habs
      cases hr : slashes.reverse with
      | nil =>
        rw [hr] at htext
        simp [isAbsolute, htext] at habs
      | cons c rest =>
        rw [hr] at htext hall
        obtain rfl : c = '/' := hall c List.mem_cons_self
        have h := partsOf_append_slashes (a := ['/']) (by simp) rest
          fun c hc => hall c (List.mem_cons_of_mem _ hc)
        rw [parts, parts, htext]
        exact h.symm
    · rfl
  · rename_i hne
    rw [parts, parts, String.toList_ofList]
    nth_rewrite 2 [htext]
    exact (partsOf_append_slashes hne _ hall).symm

theorem text_withoutSlash_ne {p : Path} (h : p.text ≠ "") : p.withoutSlash.text ≠ "" := by
  unfold withoutSlash
  split
  · split
    · decide
    · exact h
  · rename_i hne
    intro hn
    exact hne (by simpa using congrArg String.toList hn)

/-- A path that ends in a name or in a double dot has no slash at its end. -/
theorem withoutSlash_join (p : Path) {c : Part} (h : c.IsStep) :
    (p.join c.text).withoutSlash = p.join c.text := by
  obtain ⟨a, ha, -⟩ := exists_toList_join p h
  have hne : c.text.toList ≠ [] := fun hnil => by
    have hc := partOf?_text h
    rw [hnil] at hc
    cases hc
  have hdrop : (p.join c.text).text.toList.reverse.dropWhile (· = '/') =
      (p.join c.text).text.toList.reverse := by
    rw [ha, List.reverse_append]
    obtain ⟨x, xs, hx⟩ := List.exists_cons_of_ne_nil (List.reverse_ne_nil_iff.mpr hne)
    have hslash : x ≠ '/' := fun hslash => not_mem_text h <| List.mem_reverse.mp <| by
      rw [hx, hslash]
      exact List.mem_cons_self
    rw [hx, List.cons_append, List.dropWhile_cons_of_neg (by simpa using hslash)]
  unfold withoutSlash
  rw [hdrop, List.reverse_reverse]
  split
  · rename_i hnil
    rw [ha] at hnil
    exact (hne (List.append_eq_nil_iff.mp hnil).2).elim
  · rw [String.ofList_toList]

/-! ## Names after a path -/

theorem isName_of_mem_parts {p : Path} {n : String} (h : Part.name n ∈ p.parts) : IsName n := by
  obtain ⟨start, steps, hparts, hstart, hsteps⟩ := areParts_parts p
  rw [hparts] at h
  rcases List.mem_append.mp h with h | h
  · rcases hstart with rfl | rfl | rfl <;> simp at h
  · exact hsteps _ h

/-- The names of a path, in order. -/
def namesOf (relative : String) : List String :=
  (partsOf relative.toList).filterMap fun
    | .name n => some n
    | _ => none

theorem isName_of_mem_namesOf {relative n : String} (h : n ∈ namesOf relative) : IsName n := by
  obtain ⟨c, hc, hn⟩ := List.mem_filterMap.mp h
  cases c with
  | name m =>
    obtain rfl := Option.some.inj hn
    exact isName_of_mem_parts (p := ⟨relative⟩) hc
  | root | here | up => simp at hn

/-- A path followed by names. -/
def joinAll (p : Path) (names : List String) : Path := names.foldl join p

@[simp] theorem joinAll_nil (p : Path) : p.joinAll [] = p := rfl

theorem joinAll_append (p : Path) (a b : List String) :
    p.joinAll (a ++ b) = (p.joinAll a).joinAll b := List.foldl_append

theorem joinAll_concat (p : Path) (names : List String) (n : String) :
    p.joinAll (names ++ [n]) = (p.joinAll names).join n := by
  rw [joinAll_append]
  rfl

/-- Names after a path are as many more parts. -/
theorem parts_joinAll (p : Path) (names : List String) (h : ∀ n ∈ names, IsName n) :
    (p.joinAll names).parts = p.parts ++ names.map Part.name := by
  induction names using List.reverseRecOn with
  | nil => simp
  | append_singleton names n ih =>
    have hn : (Part.name n).IsStep := h n (by simp)
    rw [joinAll_concat, show n = (Part.name n).text from rfl, parts_join _ hn,
      ih fun m hm => h m (List.mem_append_left _ hm)]
    simp [Part.text]

/-- A fold that has failed stays failed. -/
theorem foldl_bind_none {α β : Type} (f : α → β → Option α) :
    ∀ xs : List β, xs.foldl (fun o x => o.bind (f · x)) none = none
  | [] => rfl
  | _ :: xs => foldl_bind_none f xs

/-- Whether a path would leave its root : it is absolute or goes up. -/
def escapes (relative : String) : Bool :=
  (partsOf relative.toList).any fun c => c = .up || c = .root

/-- A path that cannot leave its root is the root followed by names. -/
theorem containedJoin_eq (root : Path) (relative : String) :
    containedJoin root relative =
      if escapes relative then none else some (root.joinAll (namesOf relative)) := by
  unfold containedJoin escapes namesOf
  generalize partsOf relative.toList = ps
  induction ps generalizing root with
  | nil => rfl
  | cons c ps ih =>
    cases c with
    | name n => exact ih (root.join n)
    | here => exact ih root
    | up | root => exact foldl_bind_none _ ps

theorem eq_joinAll_of_containedJoin {root p : Path} {relative : String}
    (h : containedJoin root relative = some p) : p = root.joinAll (namesOf relative) := by
  rw [containedJoin_eq] at h
  split at h
  · cases h
  · exact (Option.some.inj h).symm

/-! ## Normal paths -/

theorem parts_ofStack : ∀ {stack : List String}, (∀ n ∈ stack, IsName n) →
    (ofStack stack).parts = .root :: stack.reverse.map Part.name
  | [], _ => by decide +kernel
  | n :: rest, h => by
    have hn : (Part.name n).IsStep := h n List.mem_cons_self
    have hbody : bodyOf n.toList = [.name n] := bodyOf_text hn
    have hslash : "/".toList = ['/'] := rfl
    by_cases hrest : rest = []
    · subst hrest
      rw [ofStack, parts, List.reverse_singleton, String.intercalate_singleton,
        String.toList_append, hslash]
      exact (partsOf_append_of_slash [] n.toList).trans (congrArg _ hbody)
    · have ih := parts_ofStack fun m hm => h m (List.mem_cons_of_mem n hm)
      have htext : (ofStack (n :: rest)).text.toList =
          (ofStack rest).text.toList ++ '/' :: n.toList := by
        rw [ofStack, ofStack, List.reverse_cons,
          String.intercalate_append_of_ne_nil (by simpa using hrest) (by simp),
          String.intercalate_singleton]
        simp [hslash]
      have hne : (ofStack rest).text.toList ≠ [] := by simp [ofStack, hslash]
      rw [parts, htext, partsOf_append_slash hne, hbody, List.reverse_cons, List.map_append]
      exact congrArg (· ++ [Part.name n]) ih

theorem isName_of_mem_stepNormal {stack : List String} (hstack : ∀ n ∈ stack, IsName n)
    {c : Part} (hc : ∀ n, c = .name n → IsName n) : ∀ n ∈ stepNormal stack c, IsName n := by
  cases c with
  | root => simp [stepNormal]
  | here => exact hstack
  | up => exact fun n hn => hstack n (List.mem_of_mem_drop hn)
  | name m => exact List.forall_mem_cons.mpr ⟨hc m rfl, hstack⟩

theorem isName_of_mem_foldl_stepNormal {ps : List Part} {stack : List String}
    (hps : ∀ n, Part.name n ∈ ps → IsName n) (hstack : ∀ n ∈ stack, IsName n) :
    ∀ n ∈ ps.foldl stepNormal stack, IsName n := by
  induction ps generalizing stack with
  | nil => exact hstack
  | cons c ps ih =>
    refine ih (fun n hn => hps n (List.mem_cons_of_mem c hn)) ?_
    exact isName_of_mem_stepNormal hstack fun n hn => hps n (hn ▸ List.mem_cons_self)

/-- A normal path is the top and names. -/
theorem parts_normalize (p : Path) :
    ∃ names : List String, p.normalize.parts = .root :: names.map Part.name := by
  have hnames : ∀ n ∈ p.parts.foldl stepNormal [], IsName n :=
    isName_of_mem_foldl_stepNormal (fun n => isName_of_mem_parts) (by simp)
  exact ⟨_, parts_ofStack hnames⟩

end Path

end Scaffold
