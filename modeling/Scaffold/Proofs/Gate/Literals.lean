import Scaffold.Proofs.Gate.Spelling

/-!
# Operators and literals

A text is divided in one way into literals and what is outside of them (`Divides`,
`Divides.unique`, `exists_divides`). A literal goes from a quote to the first matching quote that
no backslash stands before, or to the end of the text.

Spelling operators out leaves the literals as they are, each in its place, and goes over what is
outside of them piece by piece (`Divides.spellOutFrom`), as no operator reaches over a quote. What
is left outside has no symbolic operator (`isSpelledOut_spellOutFrom`), and a piece without one
stays as it is (`IsSpelledOut.spellOutFrom_eq_self`). So doing it again changes nothing, and a text is
left alone just if it has no symbolic operator outside of its literals (`spellOut_divides`).
-/

namespace Scaffold.Gate

open Stencil

/-- Whether a character is a quote. -/
def IsQuote (c : Char) : Prop := c = '"' ∨ c = '\''

instance (c : Char) : Decidable (IsQuote c) := inferInstanceAs (Decidable (_ ∨ _))

/-- Whether a text has no quotes. -/
def IsPlain (text : List Char) : Prop := ∀ c ∈ text, ¬IsQuote c

/-- A literal with both of its quotes. -/
inductive IsWhole : List Char → Prop
  | mk {quote : Char} {inside : List Char} : IsQuote quote → Inside quote inside →
      IsWhole (quote :: (inside ++ [quote]))

/-- A literal that goes to the end of the text. A backslash at the end has nothing to stand
before. -/
inductive IsEndless : List Char → Prop
  | mk {quote : Char} {inside : List Char} : IsQuote quote → Inside quote inside →
      IsEndless (quote :: inside)
  | backslash {quote : Char} {inside : List Char} : IsQuote quote → Inside quote inside →
      IsEndless (quote :: (inside ++ ['\\']))

/-- The pieces of a text that are outside of literals, and the literals, both in order. -/
inductive Divides : List Char → List (List Char) → List (List Char) → Prop
  | plain {piece : List Char} : IsPlain piece → Divides piece [piece] []
  | endless {piece literal : List Char} : IsPlain piece → IsEndless literal →
      Divides (piece ++ literal) [piece] [literal]
  | whole {piece literal rest : List Char} {pieces literals : List (List Char)} : IsPlain piece →
      IsWhole literal → Divides rest pieces literals →
      Divides (piece ++ (literal ++ rest)) (piece :: pieces) (literal :: literals)

/-- Whether a piece has no symbolic operator : no `&&`, no `||`, and `!` only in `!=`. -/
structure IsSpelledOut (piece : List Char) : Prop where
  noAnd : ¬['&', '&'] <:+: piece
  noOr : ¬['|', '|'] <:+: piece
  notEquals : ∀ before after, piece = before ++ '!' :: after → after.head? = some '='

/-! ## Pieces outside of literals -/

theorem isSpelledOut_nil : IsSpelledOut [] := ⟨by simp, by simp, by simp⟩

theorem double_infix_cons {a c : Char} {piece : List Char} :
    [a, a] <:+: c :: piece ↔ c = a ∧ piece.head? = some a ∨ [a, a] <:+: piece := by
  rw [List.infix_cons_iff]
  refine or_congr_left ?_
  cases piece <;> simp [List.cons_prefix_cons, eq_comm]

/-- A character before a piece without operators makes none unless it starts one. -/
theorem isSpelledOut_cons {c : Char} {piece : List Char} :
    IsSpelledOut (c :: piece) ↔ IsSpelledOut piece ∧
      (c = '&' ∨ c = '|' → piece.head? ≠ some c) ∧ (c = '!' → piece.head? = some '=') := by
  constructor
  · rintro ⟨hand, hor, hnot⟩
    rw [double_infix_cons, not_or] at hand hor
    refine ⟨⟨hand.2, hor.2, fun before after h => hnot (c :: before) after ?_⟩, ?_, ?_⟩
    · rw [h, List.cons_append]
    · rintro (rfl | rfl) h
      · exact hand.1 ⟨rfl, h⟩
      · exact hor.1 ⟨rfl, h⟩
    · rintro rfl
      exact hnot [] piece rfl
  · rintro ⟨⟨hand, hor, hnot⟩, hdouble, hbang⟩
    refine ⟨?_, ?_, fun before after h => ?_⟩
    · rw [double_infix_cons]
      rintro (⟨rfl, h⟩ | h)
      · exact hdouble (Or.inl rfl) h
      · exact hand h
    · rw [double_infix_cons]
      rintro (⟨rfl, h⟩ | h)
      · exact hdouble (Or.inr rfl) h
      · exact hor h
    · cases before with
      | nil =>
        obtain ⟨hc, rfl⟩ := List.cons.inj h
        exact hbang hc
      | cons b before => exact hnot before after (List.cons.inj h).2

/-- Characters of no operator before a piece without operators make none. -/
theorem isSpelledOut_append {word piece : List Char} (hword : ∀ c ∈ word, c ∉ ['&', '|', '!'])
    (h : IsSpelledOut piece) : IsSpelledOut (word ++ piece) := by
  induction word with
  | nil => exact h
  | cons c word ih =>
    obtain ⟨hc, hrest⟩ := List.forall_mem_cons.mp hword
    simp only [List.mem_cons, List.not_mem_nil, or_false, not_or] at hc
    refine isSpelledOut_cons.mpr ⟨ih hrest, ?_, fun h => (hc.2.2 h).elim⟩
    rintro (h | h)
    · exact (hc.1 h).elim
    · exact (hc.2.1 h).elim

/-! ## Operators -/

/-- The word for the symbolic operator that a character starts, and the text after it. -/
def operator? (c : Char) (rest : List Char) : Option (List Char × List Char) :=
  if c = '&' ∧ rest.head? = some '&' then some (" and ".toList, rest.tail)
  else if c = '|' ∧ rest.head? = some '|' then some (" or ".toList, rest.tail)
  else if c = '!' ∧ rest.head? ≠ some '=' then some (" not ".toList, rest)
  else none

theorem operator?_eq_none_iff {c : Char} {rest : List Char} : operator? c rest = none ↔
    (c = '&' ∨ c = '|' → rest.head? ≠ some c) ∧ (c = '!' → rest.head? = some '=') := by
  unfold operator?
  split_ifs with hand hor hnot
  · exact iff_of_false nofun fun h => h.1 (Or.inl hand.1) (hand.1 ▸ hand.2)
  · exact iff_of_false nofun fun h => h.1 (Or.inr hor.1) (hor.1 ▸ hor.2)
  · exact iff_of_false nofun fun h => hnot.2 (h.2 hnot.1)
  · refine iff_of_true rfl ⟨?_, fun h => not_not.mp fun hne => hnot ⟨h, hne⟩⟩
    rintro (rfl | rfl) h
    · exact hand ⟨rfl, h⟩
    · exact hor ⟨rfl, h⟩

/-- An operator is replaced by a word after a blank, which has no symbols and no quotes in it. -/
theorem operator?_eq_some {c : Char} {rest word after : List Char}
    (h : operator? c rest = some (word, after)) :
    after <:+ rest ∧ word.head? = some ' ' ∧ ∀ x ∈ word, x ∉ ['"', '\'', '&', '|', '!'] := by
  unfold operator? at h
  split_ifs at h with hand hor hnot
  · obtain ⟨rfl, rfl⟩ := Prod.mk.inj (Option.some.inj h)
    exact ⟨List.tail_suffix _, by decide, by simp⟩
  · obtain ⟨rfl, rfl⟩ := Prod.mk.inj (Option.some.inj h)
    exact ⟨List.tail_suffix _, by decide, by simp⟩
  · obtain ⟨rfl, rfl⟩ := Prod.mk.inj (Option.some.inj h)
    exact ⟨List.suffix_rfl, by decide, by simp⟩

/-- Outside of literals, an operator becomes its word, and any other character stays. -/
theorem spellOutFrom_eq {c : Char} (hc : ¬IsQuote c) (rest : List Char) :
    spellOutFrom none (c :: rest) =
      match operator? c rest with
      | some (word, after) => word ++ spellOutFrom none after
      | none => c :: spellOutFrom none rest := by
  rw [spellOutFrom.eq_def]
  dsimp only
  rw [if_neg (by exact hc), operator?]
  split
  · rfl
  · rfl
  · rfl
  · rename_i hne
    have hhead : rest.head? ≠ some '=' := fun h => by
      obtain ⟨_, heq⟩ := List.head?_eq_some_iff.mp h
      exact hne _ heq
    rw [if_neg (by simp), if_neg (by simp), if_pos ⟨rfl, hhead⟩]
  · rename_i hnot hand hor _
    rw [if_neg, if_neg, if_neg]
    · exact fun h => hnot h.1
    · rintro ⟨hc, h⟩
      obtain ⟨_, heq⟩ := List.head?_eq_some_iff.mp h
      exact hor _ hc heq
    · rintro ⟨hc, h⟩
      obtain ⟨_, heq⟩ := List.head?_eq_some_iff.mp h
      exact hand _ hc heq

/-- Whether a text is at its end or goes on with a literal. -/
def StartsQuoted (rest : List Char) : Prop := ∀ c ∈ rest.head?, IsQuote c

/-- No operator reaches over a quote. -/
theorem operator?_append {piece rest : List Char} (h : StartsQuoted rest) (c : Char) :
    operator? c (piece ++ rest) = (operator? c piece).map fun p => (p.1, p.2 ++ rest) := by
  unfold operator?
  cases piece with
  | cons d piece =>
    rw [List.cons_append, List.head?_cons, List.head?_cons, List.tail_cons, List.tail_cons]
    by_cases hand : c = '&' ∧ some d = some '&'
    · rw [if_pos hand, if_pos hand, Option.map_some]
    · rw [if_neg hand, if_neg hand]
      by_cases hor : c = '|' ∧ some d = some '|'
      · rw [if_pos hor, if_pos hor, Option.map_some]
      · rw [if_neg hor, if_neg hor]
        split_ifs <;> rfl
  | nil =>
    have hne {a : Char} (ha : ¬IsQuote a) : rest.head? ≠ some a := fun heq => ha (h a heq)
    have hand := hne (a := '&') (by decide)
    have hor := hne (a := '|') (by decide)
    have heq := hne (a := '=') (by decide)
    simp only [List.nil_append, hand, hor, heq, and_false, if_false, ne_eq, not_false_eq_true,
      and_true, List.head?_nil, reduceCtorEq, apply_ite (Option.map _), Option.map_some,
      Option.map_none]

/-- What holds of pieces of which an operator or else a character was taken off holds of all
pieces. -/
theorem piece_induction {P : List Char → Prop} (nil : P [])
    (operator : ∀ c rest word after, operator? c rest = some (word, after) → P after →
      P (c :: rest))
    (char : ∀ c rest, operator? c rest = none → P rest → P (c :: rest)) : ∀ piece, P piece
  | [] => nil
  | c :: rest => by
    cases h : operator? c rest with
    | none => exact char c rest h (piece_induction nil operator char rest)
    | some p =>
      have hafter := (operator?_eq_some h).1.length_le
      exact operator c rest p.1 p.2 h (piece_induction nil operator char p.2)
termination_by piece => piece.length

/-- A piece starts with what it started with, or with the blank before a word. -/
theorem head?_spellOutFrom {piece : List Char} (h : IsPlain piece) :
    (spellOutFrom none piece).head? = piece.head? ∨
      (spellOutFrom none piece).head? = some ' ' := by
  cases piece with
  | nil => exact Or.inl rfl
  | cons c rest =>
    rw [spellOutFrom_eq (h c List.mem_cons_self)]
    cases hop : operator? c rest with
    | none => exact Or.inl rfl
    | some p =>
      refine Or.inr ?_
      rw [List.head?_append, (operator?_eq_some hop).2.1]
      rfl

/-- What is left of a piece has no operator. -/
theorem isSpelledOut_spellOutFrom {piece : List Char} (h : IsPlain piece) :
    IsSpelledOut (spellOutFrom none piece) := by
  induction piece using piece_induction with
  | nil => exact isSpelledOut_nil
  | operator c rest word after hop ih =>
    obtain ⟨hc, hrest⟩ := List.forall_mem_cons.mp h
    obtain ⟨hafter, -, hword⟩ := operator?_eq_some hop
    rw [spellOutFrom_eq hc, hop]
    refine isSpelledOut_append (fun x hx hmem => hword x hx ?_)
      (ih fun x hx => hrest x (hafter.subset hx))
    exact List.mem_cons_of_mem _ (List.mem_cons_of_mem _ hmem)
  | char c rest hop ih =>
    obtain ⟨hc, hrest⟩ := List.forall_mem_cons.mp h
    obtain ⟨hdouble, hbang⟩ := operator?_eq_none_iff.mp hop
    rw [spellOutFrom_eq hc, hop]
    refine isSpelledOut_cons.mpr ⟨ih hrest, fun hc hhead => ?_, fun hc => ?_⟩
    · rcases head?_spellOutFrom hrest with h | h
      · exact hdouble hc (h.symm.trans hhead)
      · obtain rfl := Option.some.inj (h.symm.trans hhead)
        exact absurd hc (by decide)
    · -- The sign after `!` starts no operator, so it is still there.
      obtain ⟨after, rfl⟩ := List.head?_eq_some_iff.mp (hbang hc)
      rw [spellOutFrom_eq (by decide), operator?_eq_none_iff.mpr (by simp)]
      rfl

/-- A piece without operators stays as it is. -/
theorem IsSpelledOut.spellOutFrom_eq_self {piece : List Char} (hplain : IsPlain piece)
    (h : IsSpelledOut piece) : spellOutFrom none piece = piece := by
  induction piece with
  | nil => rfl
  | cons c rest ih =>
    obtain ⟨hc, hrest⟩ := List.forall_mem_cons.mp hplain
    obtain ⟨hspelled, hop⟩ := isSpelledOut_cons.mp h
    rw [spellOutFrom_eq hc, operator?_eq_none_iff.mpr hop]
    exact congrArg _ (ih hrest hspelled)

/-- What is left of a piece has no quotes. -/
theorem IsPlain.spellOutFrom {piece : List Char} (h : IsPlain piece) :
    IsPlain (spellOutFrom none piece) := by
  induction piece using piece_induction with
  | nil => exact nofun
  | operator c rest word after hop ih =>
    obtain ⟨hc, hrest⟩ := List.forall_mem_cons.mp h
    obtain ⟨hafter, -, hword⟩ := operator?_eq_some hop
    rw [spellOutFrom_eq hc, hop]
    refine List.forall_mem_append.mpr ⟨fun x hx => ?_, ih fun x hx => hrest x (hafter.subset hx)⟩
    rintro (rfl | rfl) <;> exact hword _ hx (by decide)
  | char c rest hop ih =>
    obtain ⟨hc, hrest⟩ := List.forall_mem_cons.mp h
    rw [spellOutFrom_eq hc, hop]
    exact List.forall_mem_cons.mpr ⟨hc, ih hrest⟩

/-- A piece is spelled out by itself. -/
theorem spellOutFrom_piece_append {piece rest : List Char} (h : IsPlain piece)
    (hrest : StartsQuoted rest) :
    spellOutFrom none (piece ++ rest) = spellOutFrom none piece ++ spellOutFrom none rest := by
  induction piece using piece_induction with
  | nil => rfl
  | operator c more word after hop ih =>
    obtain ⟨hc, hmore⟩ := List.forall_mem_cons.mp h
    rw [List.cons_append, spellOutFrom_eq hc, spellOutFrom_eq hc, operator?_append hrest, hop,
      Option.map_some]
    dsimp only
    rw [ih fun x hx => hmore x ((operator?_eq_some hop).1.subset hx), List.append_assoc]
  | char c more hop ih =>
    obtain ⟨hc, hmore⟩ := List.forall_mem_cons.mp h
    rw [List.cons_append, spellOutFrom_eq hc, spellOutFrom_eq hc, operator?_append hrest, hop,
      Option.map_none]
    dsimp only
    rw [ih hmore, List.cons_append]

/-! ## Literals -/

theorem IsQuote.ne_backslash {c : Char} (h : IsQuote c) : c ≠ '\\' := by
  rcases h with rfl | rfl <;> decide

/-- Text inside of quotes stays as it is, and the literal goes on after it. -/
theorem spellOutFrom_inside_append {quote : Char} {inside : List Char} (h : Inside quote inside)
    (rest : List Char) :
    spellOutFrom (some quote) (inside ++ rest) = inside ++ spellOutFrom (some quote) rest := by
  induction h with
  | nil => rfl
  | escape e _ ih =>
    rw [List.cons_append, List.cons_append, spellOutFrom, if_pos rfl, ih]
    rfl
  | plain hc hq _ ih =>
    rw [List.cons_append, spellOutFrom.eq_def]
    dsimp only
    rw [if_neg hc, if_neg hq, ih, List.cons_append]

theorem spellOutFrom_quote {quote : Char} (h : IsQuote quote) (rest : List Char) :
    spellOutFrom none (quote :: rest) = quote :: spellOutFrom (some quote) rest := by
  rw [spellOutFrom.eq_def]
  dsimp only
  rw [if_pos (by exact h)]

theorem IsWhole.spellOutFrom_append {literal : List Char} (h : IsWhole literal)
    (rest : List Char) : spellOutFrom none (literal ++ rest) = literal ++ spellOutFrom none rest := by
  obtain ⟨hquote, hinside⟩ := h
  rw [List.cons_append, List.append_assoc, spellOutFrom_quote hquote, List.singleton_append,
    spellOutFrom_inside hquote.ne_backslash hinside]
  simp

theorem IsEndless.spellOutFrom_eq_self {literal : List Char} (h : IsEndless literal) :
    spellOutFrom none literal = literal := by
  cases h with
  | mk hquote hinside =>
    have heq := spellOutFrom_inside_append hinside []
    rw [List.append_nil] at heq
    rw [spellOutFrom_quote hquote, heq, spellOutFrom, List.append_nil]
  | backslash hquote hinside =>
    rw [spellOutFrom_quote hquote, spellOutFrom_inside_append hinside]
    rfl

theorem IsEndless.startsQuoted {literal : List Char} (h : IsEndless literal) :
    StartsQuoted literal := by
  cases h <;> simpa [StartsQuoted]

theorem IsWhole.startsQuoted {literal : List Char} (h : IsWhole literal) (rest : List Char) :
    StartsQuoted (literal ++ rest) := by
  cases h
  simpa [StartsQuoted]

/-- A literal ends at a quote or goes to the end of the text. -/
theorem whole_or_endless {quote : Char} (hquote : IsQuote quote) : ∀ rest : List Char,
    (∃ inside after, Inside quote inside ∧ rest = inside ++ quote :: after) ∨
      IsEndless (quote :: rest)
  | [] => Or.inr (.mk hquote .nil)
  | c :: rest => by
    by_cases hc : c = '\\'
    · subst hc
      cases rest with
      | nil => exact Or.inr (.backslash hquote .nil)
      | cons e rest =>
        rcases whole_or_endless hquote rest with ⟨inside, after, hinside, rfl⟩ | hendless
        · exact Or.inl ⟨_, after, .escape e hinside, rfl⟩
        · cases hendless with
          | mk _ hinside => exact Or.inr (.mk hquote (.escape e hinside))
          | backslash _ hinside => exact Or.inr (.backslash hquote (.escape e hinside))
    · by_cases hq : c = quote
      · exact Or.inl ⟨[], rest, .nil, by rw [hq, List.nil_append]⟩
      · rcases whole_or_endless hquote rest with ⟨inside, after, hinside, rfl⟩ | hendless
        · exact Or.inl ⟨_, after, .plain hc hq hinside, rfl⟩
        · cases hendless with
          | mk _ hinside => exact Or.inr (.mk hquote (.plain hc hq hinside))
          | backslash _ hinside => exact Or.inr (.backslash hquote (.plain hc hq hinside))

theorem splitLiteral?_append {quote : Char} {inside : List Char} (h : Inside quote inside)
    {rest : List Char} (hrest : splitLiteral? quote rest = none) :
    splitLiteral? quote (inside ++ rest) = none := by
  induction h with
  | nil => exact hrest
  | escape e _ ih =>
    rw [List.cons_append, List.cons_append, splitLiteral?, if_pos rfl, ih]
    rfl
  | plain hc hq _ ih =>
    rw [List.cons_append, splitLiteral?.eq_def]
    dsimp only
    rw [if_neg hc, if_neg hq, ih]
    rfl

theorem splitLiteral?_endless {quote : Char} {rest : List Char} (h : IsEndless (quote :: rest)) :
    splitLiteral? quote rest = none := by
  cases h with
  | mk _ hinside =>
    rw [← List.append_nil rest]
    exact splitLiteral?_append hinside rfl
  | backslash _ hinside => exact splitLiteral?_append hinside rfl

theorem IsEndless.ne_nil {literal : List Char} (h : IsEndless literal) : literal ≠ [] := by
  cases h <;> simp

theorem IsWhole.append_ne_nil {literal : List Char} (h : IsWhole literal) (rest : List Char) :
    literal ++ rest ≠ [] := by
  cases h
  simp

/-- A literal with both quotes is told from what stands after it. -/
theorem IsWhole.append_inj {literal literal' rest rest' : List Char} (h : IsWhole literal)
    (h' : IsWhole literal') (heq : literal ++ rest = literal' ++ rest') :
    literal = literal' ∧ rest = rest' := by
  obtain ⟨hquote, hinside⟩ := h
  obtain ⟨-, hinside'⟩ := h'
  rw [List.cons_append, List.cons_append, List.append_assoc, List.append_assoc] at heq
  obtain ⟨rfl, heq⟩ := List.cons.inj heq
  have hsplit := splitLiteral?_inside hquote.ne_backslash hinside rest
  rw [← List.singleton_append, heq, List.singleton_append,
    splitLiteral?_inside hquote.ne_backslash hinside'] at hsplit
  obtain ⟨rfl, rfl⟩ := Prod.mk.inj (Option.some.inj hsplit)
  exact ⟨rfl, rfl⟩

theorem IsWhole.not_isEndless {literal : List Char} (h : IsWhole literal) (rest : List Char) :
    ¬IsEndless (literal ++ rest) := by
  obtain ⟨hquote, hinside⟩ := h
  intro hendless
  rw [List.cons_append] at hendless
  have hsplit := splitLiteral?_endless hendless
  rw [List.append_assoc, List.singleton_append,
    splitLiteral?_inside hquote.ne_backslash hinside] at hsplit
  cases hsplit

/-! ## Divisions -/

/-- A piece goes to the first quote. -/
theorem IsPlain.append_inj {piece piece' rest rest' : List Char} (h : IsPlain piece)
    (h' : IsPlain piece') (hrest : StartsQuoted rest) (hrest' : StartsQuoted rest')
    (heq : piece ++ rest = piece' ++ rest') : piece = piece' ∧ rest = rest' := by
  induction piece generalizing piece' with
  | nil =>
    cases piece' with
    | nil => exact ⟨rfl, heq⟩
    | cons c piece' =>
      have hc : rest.head? = some c := by rw [← List.nil_append rest, heq]; rfl
      exact absurd (hrest c hc) (h' c List.mem_cons_self)
  | cons c piece ih =>
    cases piece' with
    | nil =>
      have hc : rest'.head? = some c := by rw [← List.nil_append rest', ← heq]; rfl
      exact absurd (hrest' c hc) (h c List.mem_cons_self)
    | cons c' piece' =>
      obtain ⟨rfl, htail⟩ := List.cons.inj heq
      obtain ⟨rfl, rfl⟩ := ih (List.forall_mem_cons.mp h).2 (List.forall_mem_cons.mp h').2 htail
      exact ⟨rfl, rfl⟩

/-- A text goes up to its first literal, and from there it is divided in the same way. -/
theorem Divides.exists_first {text : List Char} {pieces literals : List (List Char)}
    (h : Divides text pieces literals) : ∃ piece more, text = piece ++ more ∧ IsPlain piece ∧
      StartsQuoted more ∧ (more = [] ∧ pieces = [piece] ∧ literals = [] ∨
        IsEndless more ∧ pieces = [piece] ∧ literals = [more] ∨
        ∃ literal rest pieces' literals', more = literal ++ rest ∧ IsWhole literal ∧
          Divides rest pieces' literals' ∧ pieces = piece :: pieces' ∧
          literals = literal :: literals') := by
  cases h with
  | plain hpiece =>
    exact ⟨text, [], (List.append_nil _).symm, hpiece, nofun, Or.inl ⟨rfl, rfl, rfl⟩⟩
  | endless hpiece hliteral =>
    exact ⟨_, _, rfl, hpiece, hliteral.startsQuoted, Or.inr (Or.inl ⟨hliteral, rfl, rfl⟩)⟩
  | whole hpiece hliteral hrest =>
    exact ⟨_, _, rfl, hpiece, hliteral.startsQuoted _,
      Or.inr (Or.inr ⟨_, _, _, _, rfl, hliteral, hrest, rfl, rfl⟩)⟩

/-- A text is divided in one way. -/
theorem Divides.unique {text : List Char} {pieces pieces' literals literals' : List (List Char)}
    (h : Divides text pieces literals) (h' : Divides text pieces' literals') :
    pieces' = pieces ∧ literals' = literals := by
  obtain ⟨piece', more', htext, hpiece', hmore', hfirst⟩ := h'.exists_first
  induction h generalizing pieces' literals' piece' more' with
  | @plain piece hpiece =>
    have hnil : StartsQuoted [] := nofun
    obtain ⟨rfl, rfl⟩ := hpiece.append_inj hpiece' hnil hmore' ((List.append_nil _).trans htext)
    rcases hfirst with ⟨-, rfl, rfl⟩ | ⟨hendless, -⟩ | ⟨literal, rest, _, _, heq, hwhole, -⟩
    · exact ⟨rfl, rfl⟩
    · exact (hendless.ne_nil rfl).elim
    · exact (hwhole.append_ne_nil rest heq.symm).elim
  | endless hpiece hliteral =>
    obtain ⟨rfl, rfl⟩ := hpiece.append_inj hpiece' hliteral.startsQuoted hmore' htext
    rcases hfirst with ⟨rfl, -⟩ | ⟨-, rfl, rfl⟩ | ⟨literal, rest, _, _, rfl, hwhole, -⟩
    · exact (hliteral.ne_nil rfl).elim
    · exact ⟨rfl, rfl⟩
    · exact (hwhole.not_isEndless rest hliteral).elim
  | whole hpiece hliteral _ ih =>
    obtain ⟨rfl, rfl⟩ := hpiece.append_inj hpiece' (hliteral.startsQuoted _) hmore' htext
    rcases hfirst with ⟨hnil, -⟩ | ⟨hendless, -⟩ | ⟨_, _, _, _, heq, hwhole, hrest, rfl, rfl⟩
    · exact (hliteral.append_ne_nil _ hnil).elim
    · exact (hliteral.not_isEndless _ hendless).elim
    · obtain ⟨rfl, rfl⟩ := hliteral.append_inj hwhole heq
      obtain ⟨_, _, htext, hpiece, hmore, hfirst⟩ := hrest.exists_first
      obtain ⟨rfl, rfl⟩ := ih hrest _ _ htext hpiece hmore hfirst
      exact ⟨rfl, rfl⟩

theorem exists_plain : ∀ text : List Char,
    ∃ piece more, text = piece ++ more ∧ IsPlain piece ∧ StartsQuoted more
  | [] => ⟨[], [], rfl, nofun, nofun⟩
  | c :: text => by
    by_cases hc : IsQuote c
    · exact ⟨[], c :: text, rfl, nofun, by simpa [StartsQuoted]⟩
    · obtain ⟨piece, more, rfl, hpiece, hmore⟩ := exists_plain text
      exact ⟨c :: piece, more, rfl, List.forall_mem_cons.mpr ⟨hc, hpiece⟩, hmore⟩

/-- Every text is divided. -/
theorem exists_divides (text : List Char) : ∃ pieces literals, Divides text pieces literals := by
  obtain ⟨piece, more, htext, hpiece, hmore⟩ := exists_plain text
  match more, hmore with
  | [], _ =>
    rw [htext, List.append_nil]
    exact ⟨[piece], [], .plain hpiece⟩
  | quote :: more, hmore =>
    have hquote : IsQuote quote := hmore quote rfl
    rcases whole_or_endless hquote more with ⟨inside, rest, hinside, rfl⟩ | hendless
    · have hlength : rest.length < text.length := by
        rw [htext]
        simp only [List.length_append, List.length_cons]
        omega
      obtain ⟨pieces, literals, hrest⟩ := exists_divides rest
      have heq : text = piece ++ ((quote :: (inside ++ [quote])) ++ rest) := by
        rw [htext]
        simp
      rw [heq]
      exact ⟨_, _, .whole hpiece (.mk hquote hinside) hrest⟩
    · rw [htext]
      exact ⟨[piece], [quote :: more], .endless hpiece hendless⟩
termination_by text.length

/-- The literals stay where they are, and the pieces are spelled out one by one. -/
theorem Divides.spellOutFrom {text : List Char} {pieces literals : List (List Char)}
    (h : Divides text pieces literals) :
    Divides (spellOutFrom none text) (pieces.map (spellOutFrom none)) literals := by
  induction h with
  | plain hpiece => exact .plain hpiece.spellOutFrom
  | endless hpiece hliteral =>
    rw [spellOutFrom_piece_append hpiece hliteral.startsQuoted, hliteral.spellOutFrom_eq_self]
    exact .endless hpiece.spellOutFrom hliteral
  | whole hpiece hliteral _ ih =>
    rw [spellOutFrom_piece_append hpiece (hliteral.startsQuoted _), hliteral.spellOutFrom_append]
    exact .whole hpiece.spellOutFrom hliteral ih

/-- A text without operators outside of its literals stays as it is. -/
theorem Divides.spellOutFrom_eq_self {text : List Char} {pieces literals : List (List Char)}
    (h : Divides text pieces literals) (hpieces : ∀ p ∈ pieces, IsSpelledOut p) :
    Gate.spellOutFrom none text = text := by
  induction h with
  | plain hpiece => exact (hpieces _ List.mem_cons_self).spellOutFrom_eq_self hpiece
  | endless hpiece hliteral =>
    rw [spellOutFrom_piece_append hpiece hliteral.startsQuoted, hliteral.spellOutFrom_eq_self,
      (hpieces _ List.mem_cons_self).spellOutFrom_eq_self hpiece]
  | whole hpiece hliteral _ ih =>
    obtain ⟨hfirst, hmore⟩ := List.forall_mem_cons.mp hpieces
    rw [spellOutFrom_piece_append hpiece (hliteral.startsQuoted _), hliteral.spellOutFrom_append,
      hfirst.spellOutFrom_eq_self hpiece, ih hmore]

theorem Divides.isPlain {text : List Char} {pieces literals : List (List Char)}
    (h : Divides text pieces literals) : ∀ p ∈ pieces, IsPlain p := by
  induction h with
  | plain hpiece => exact List.forall_mem_singleton.mpr hpiece
  | endless hpiece _ => exact List.forall_mem_singleton.mpr hpiece
  | whole hpiece _ _ ih => exact List.forall_mem_cons.mpr ⟨hpiece, ih⟩

/-- Spelling operators out leaves the literals of an expression as they are and in order, and no
symbolic operator outside of them. An expression stays as it is just if it has none there, and the
second time nothing is left to do. -/
theorem spellOut_divides (expression : String) : ∃ pieces literals,
    (∀ ps ls, Divides expression.toList ps ls ↔ ps = pieces ∧ ls = literals) ∧
    (∃ spelled, (∀ ps ls, Divides (spellOut expression).toList ps ls ↔
        ps = spelled ∧ ls = literals) ∧ ∀ p ∈ spelled, IsSpelledOut p) ∧
    (spellOut expression = expression ↔ ∀ p ∈ pieces, IsSpelledOut p) ∧
    spellOut (spellOut expression) = spellOut expression := by
  obtain ⟨pieces, literals, h⟩ := exists_divides expression.toList
  have hspelled : Divides (spellOut expression).toList (pieces.map (spellOutFrom none)) literals := by
    rw [spellOut, String.toList_ofList]
    exact h.spellOutFrom
  have hleft : ∀ p ∈ pieces.map (spellOutFrom none), IsSpelledOut p :=
    List.forall_mem_map.mpr fun p hp => isSpelledOut_spellOutFrom (h.isPlain p hp)
  have hself {e : String} {ps : List (List Char)} (he : Divides e.toList ps literals)
      (hps : ∀ p ∈ ps, IsSpelledOut p) : spellOut e = e := by
    rw [spellOut, he.spellOutFrom_eq_self hps, String.ofList_toList]
  refine ⟨pieces, literals, fun ps ls => ⟨h.unique, ?_⟩, ⟨_, fun ps ls => ⟨hspelled.unique, ?_⟩,
    hleft⟩, ⟨fun heq => ?_, hself h⟩, hself hspelled hleft⟩
  · rintro ⟨rfl, rfl⟩
    exact h
  · rintro ⟨rfl, rfl⟩
    exact hspelled
  · rw [heq] at hspelled
    rwa [← (h.unique hspelled).1]

example : spellOut "!a&&&'x&&\\'y'||b!=!c" = " not a and &'x&&\\'y' or b!= not c" := by decide +kernel

end Scaffold.Gate
