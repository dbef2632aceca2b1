import Mathlib.Data.List.TakeWhile
import Scaffold.Stencil.Token.Lexer

/-!
# Lexemes

A lexeme is a token of an expression as it is written : a sign, a word, a number or a literal. A
literal ends at the first matching quote that no backslash stands before (`Inside`), and a number is
whatever is read off as one.

A lexeme is read off where the text does not go on with it (`Lexeme.Ends`). `Writes` says of a text
that it is lexemes that end, with white space anywhere before them and after the last one, and
`Spells` that there is white space between all of them. The tokens of such a text are those of its
lexemes, however much white space there is (`ofExpression_of_writes`, `ofExpression_of_spells`), up
to the first one that is faulty, where the text cannot be split any further.
-/

namespace Scaffold.Stencil

/-! ## Texts of tokens -/

/-- The characters of a sign. -/
def Sign.chars : Sign → List Char
  | plus => ['+'] | minus => ['-'] | times => ['*'] | slash => ['/'] | slashSlash => ['/', '/']
  | percent => ['%'] | power => ['*', '*'] | tilde => ['~'] | equals => ['=', '=']
  | notEquals => ['!', '='] | less => ['<'] | lessEq => ['<', '='] | greater => ['>']
  | greaterEq => ['>', '='] | dot => ['.'] | comma => [','] | colon => [':'] | pipe => ['|']
  | assign => ['='] | parenOpen => ['('] | parenClose => [')'] | bracketOpen => ['[']
  | bracketClose => [']'] | braceOpen => ['\x7b'] | braceClose => ['\x7d']

/-- The characters that go on with a sign as another one, as the operator of a gate or as the end
of a region. -/
def Sign.goesOn : Sign → List Char
  | slash => ['/'] | times => ['*'] | assign | less | greater => ['='] | pipe => ['|']
  | plus | minus | braceClose => ['\x7d'] | _ => []

/-- Whether a text has no quote that would end it. -/
inductive Inside (quote : Char) : List Char → Prop
  | nil : Inside quote []
  | escape (e : Char) {rest : List Char} : Inside quote rest → Inside quote ('\\' :: e :: rest)
  | plain {c : Char} {rest : List Char} : c ≠ '\\' → c ≠ quote → Inside quote rest →
      Inside quote (c :: rest)

/-- A token of an expression as it is written. -/
inductive Lexeme where
  | sign (s : Sign)
  | word (first : Char) (more : List Char) (hfirst : isWordStart first = true)
    (hmore : ∀ c ∈ more, isWordPart c = true)
  | number (first : Char) (more : List Char) (hfirst : first.isDigit = true)
    (hwhole : (splitNumber (first :: more)).2 = [])
  | literal (quote : Char) (inside : List Char) (hquote : quote = '"' ∨ quote = '\'')
    (hinside : Inside quote inside)

namespace Lexeme

/-- The characters of a lexeme. -/
def chars : Lexeme → List Char
  | sign s => s.chars
  | word first more .. => first :: more
  | number first more .. => first :: more
  | literal quote inside .. => quote :: inside ++ [quote]

/-- The token of a lexeme. -/
def token : Lexeme → Token
  | sign s => .sign s
  | word first more .. => .word (String.ofList (first :: more))
  | number first more .. => (splitNumber (first :: more)).1
  | literal _ inside .. =>
    match unescape (inside.length + 1) inside with
    | .ok value => .str (String.ofList value)
    | .error fault => .fault fault

end Lexeme

/-- Whether a token says that a text cannot be split. -/
def Token.isFault : Token → Bool
  | .fault _ => true
  | _ => false

/-- Tokens up to the first one that is a fault. -/
def upToFault : List Token → List Token
  | [] => []
  | t :: ts => t :: if t.isFault then [] else upToFault ts

/-! ## Reading a lexeme off -/

/-- Whether a text is at its end or goes on with white space. -/
def Stops (text : List Char) : Prop := ∀ c ∈ text.head?, isGap c = true

theorem stops_nil : Stops [] := nofun

theorem stops_cons {c : Char} {text : List Char} : Stops (c :: text) ↔ isGap c = true :=
  ⟨fun h => h c rfl, fun h _ hc => Option.some.inj hc ▸ h⟩

theorem isGap_iff {c : Char} :
    isGap c = true ↔ c = ' ' ∨ c = '\t' ∨ c = '\n' ∨ c = '\r' ∨ c = '\x0c' := by
  simp [isGap, or_assoc]

/-- A text that stops is empty or starts with one of the characters of white space. -/
theorem Stops.eq_nil_or {text : List Char} (h : Stops text) :
    text = [] ∨ ∃ c rest, text = c :: rest ∧
      (c = ' ' ∨ c = '\t' ∨ c = '\n' ∨ c = '\r' ∨ c = '\x0c') := by
  cases text with
  | nil => exact Or.inl rfl
  | cons c rest => exact Or.inr ⟨c, rest, rfl, isGap_iff.mp (stops_cons.mp h)⟩

theorem splitSign?_chars (s : Sign) {rest : List Char} (h : ∀ c ∈ rest.head?, c ∉ s.goesOn) :
    splitSign? (s.chars ++ rest) = some (s, rest) := by
  cases rest with
  | nil => cases s <;> rfl
  | cons c rest =>
    have hc := h c rfl
    cases s <;> simp [Sign.goesOn] at hc <;> simp [splitSign?, Sign.chars, hc]

/-- A character that starts a word, a number or a literal starts no sign. -/
theorem splitSign?_eq_none {c : Char} {rest : List Char}
    (h : isWordStart c = true ∨ c.isDigit = true ∨ c = '"' ∨ c = '\'') :
    splitSign? (c :: rest) = none := by
  unfold splitSign?
  split <;> first
    | rfl
    | rename_i heq
      obtain ⟨rfl, -⟩ := List.cons.inj heq
      exact absurd h (by decide)

/-- White space goes on with no word. -/
theorem isWordPart_of_isGap {c : Char} (h : isGap c = true) : isWordPart c = false := by
  rcases isGap_iff.mp h with rfl | rfl | rfl | rfl | rfl <;> decide

/-- What goes on to a character of another kind is taken as a whole. -/
theorem span_append {p : Char → Bool} {chars rest : List Char}
    (hchars : ∀ c ∈ chars, p c = true) (h : ∀ c ∈ rest.head?, p c = false) :
    (chars ++ rest).takeWhile p = chars ∧ (chars ++ rest).dropWhile p = rest := by
  rw [List.takeWhile_append_of_pos hchars, List.dropWhile_append_of_pos hchars]
  cases rest with
  | nil => simp
  | cons c rest =>
    have hc := h c rfl
    simp [hc]

/-! ## Literals and numbers -/

theorem splitLiteral?_inside {quote : Char} (hquote : quote ≠ '\\') {inside : List Char}
    (h : Inside quote inside) (rest : List Char) :
    splitLiteral? quote (inside ++ quote :: rest) = some (inside, rest) := by
  induction h with
  | nil =>
    rw [List.nil_append, splitLiteral?.eq_def]
    dsimp only
    rw [if_neg hquote, if_pos rfl]
  | escape e _ ih =>
    rw [List.cons_append, List.cons_append, splitLiteral?, if_pos rfl, ih]
    rfl
  | plain hc hq _ ih =>
    rw [List.cons_append, splitLiteral?.eq_def]
    dsimp only
    rw [if_neg hc, if_neg hq, ih]
    rfl

/-- Whether a character may be in a number. -/
def IsNumberPart (c : Char) : Prop := isWordPart c = true ∨ c = '.' ∨ c = '+' ∨ c = '-'

instance : DecidablePred IsNumberPart := fun _ => inferInstanceAs (Decidable (_ ∨ _))

/-- A number does not go on with what no number has in it. -/
theorem splitDecimal_cons {c : Char} (hc : ¬IsNumberPart c) (part : NumberPart)
    (rest : List Char) :
    splitDecimal part (c :: rest) = ([], (splitDecimal part []).2.1, c :: rest) := by
  simp only [IsNumberPart, isWordPart, not_or, Bool.or_eq_true, decide_eq_true_eq] at hc
  obtain ⟨⟨halpha, hline⟩, hdot, hplus, hminus⟩ := hc
  have hdigit : c.isDigit = false := by
    simp only [Char.isAlphanum, Bool.or_eq_true, not_or, Bool.not_eq_true] at halpha
    exact halpha.2
  have hexp : c ≠ 'e' ∧ c ≠ 'E' := by
    constructor <;> rintro rfl <;> exact halpha (by decide)
  cases part <;> simp [splitDecimal, hdigit, hline, hdot, hplus, hminus, hexp]

/-- A number is read off as a whole before what does not go on with it. -/
theorem splitDecimal_append {rest : List Char} (h : ∀ c ∈ rest.head?, ¬IsNumberPart c)
    {chars : List Char} {part : NumberPart} (hwhole : (splitDecimal part chars).2.2 = []) :
    splitDecimal part (chars ++ rest) =
      ((splitDecimal part chars).1, (splitDecimal part chars).2.1, rest) := by
  induction chars generalizing part with
  | nil =>
    cases rest with
    | nil => cases part <;> rfl
    | cons c rest =>
      rw [List.nil_append, splitDecimal_cons (h c rfl)]
      rfl
  | cons c chars ih =>
    rw [List.cons_append, splitDecimal.eq_def part (c :: (chars ++ rest))]
    rw [splitDecimal.eq_def part (c :: chars)] at hwhole ⊢
    dsimp only at hwhole ⊢
    split at hwhole
    · rw [ih hwhole]
    · cases hwhole

theorem isNumberPart_of_splitDecimal {chars : List Char} {part : NumberPart}
    (hwhole : (splitDecimal part chars).2.2 = []) : ∀ c ∈ chars, IsNumberPart c := by
  induction chars generalizing part with
  | nil => simp
  | cons c chars ih =>
    have hc : IsNumberPart c := by
      by_contra hc
      rw [splitDecimal_cons hc] at hwhole
      cases hwhole
    rw [splitDecimal.eq_def] at hwhole
    dsimp only at hwhole
    split at hwhole
    · exact List.forall_mem_cons.mpr ⟨hc, ih hwhole⟩
    · cases hwhole

/-- Whether a character may be in a number to a base. -/
def isBaseDigit (base : Nat) (c : Char) : Bool :=
  c.isDigit || c = '_' || (base = 16 && (('a' ≤ c && c ≤ 'f') || ('A' ≤ c && c ≤ 'F')))

theorem isAlpha_iff {c : Char} : c.isAlpha = true ↔
    ('A' ≤ c ∧ c ≤ 'Z') ∨ ('a' ≤ c ∧ c ≤ 'z') := by
  have heq : c.isAlpha = (decide ('A' ≤ c ∧ c ≤ 'Z') || (decide ('a' ≤ c) && decide (c ≤ 'z'))) :=
    rfl
  simp only [heq, Bool.or_eq_true, Bool.and_eq_true, decide_eq_true_eq]

theorem isWordPart_of_isBaseDigit {base : Nat} {c : Char} (h : isBaseDigit base c = true) :
    isWordPart c = true := by
  simp only [isBaseDigit, Bool.or_eq_true, Bool.and_eq_true, decide_eq_true_eq] at h
  simp only [isWordPart, Char.isAlphanum, isAlpha_iff, Bool.or_eq_true, decide_eq_true_eq]
  rcases h with (h | h) | ⟨-, ⟨hlow, hhigh⟩ | ⟨hlow, hhigh⟩⟩
  · exact Or.inl (Or.inr h)
  · exact Or.inr h
  · exact Or.inl (Or.inl (Or.inr ⟨hlow, Nat.le_trans hhigh (by decide)⟩))
  · exact Or.inl (Or.inl (Or.inl ⟨hlow, Nat.le_trans hhigh (by decide)⟩))

/-- A number to a base is read off as a whole before what does not go on with it. -/
theorem splitBase_append (base : Nat) {chars rest : List Char}
    (hwhole : chars.dropWhile (isBaseDigit base) = []) (h : ∀ c ∈ rest.head?, ¬IsNumberPart c) :
    (numberToken base false ((chars ++ rest).takeWhile (isBaseDigit base)),
        (chars ++ rest).dropWhile (isBaseDigit base)) =
      (numberToken base false (chars.takeWhile (isBaseDigit base)), rest) := by
  have hall : ∀ c ∈ chars, isBaseDigit base c = true := by
    simpa [List.dropWhile_eq_nil_iff] using hwhole
  have hstop : ∀ c ∈ rest.head?, isBaseDigit base c = false := fun c hc => by
    by_contra hdigit
    exact h c hc (Or.inl (isWordPart_of_isBaseDigit (by simpa using hdigit)))
  obtain ⟨htake, hdrop⟩ := span_append hall hstop
  rw [htake, hdrop, List.takeWhile_eq_self_iff.mpr hall]

/-- What starts a number before what does not go on with it starts the number. -/
theorem exists_of_append_eq {a b : Char} (ha : IsNumberPart a) (hb : IsNumberPart b)
    {chars rest more : List Char} (h : ∀ c ∈ rest.head?, ¬IsNumberPart c)
    (heq : chars ++ rest = a :: b :: more) : ∃ more, chars = a :: b :: more := by
  have hstop {c : Char} {text : List Char} (hc : IsNumberPart c) (hrest : rest = c :: text) :
      False := h c (by rw [hrest]; rfl) hc
  match chars, heq with
  | [], heq => exact (hstop ha heq).elim
  | [c], heq => exact (hstop hb (List.cons.inj heq).2).elim
  | c :: d :: more, heq =>
    obtain ⟨hc, heq⟩ := List.cons.inj heq
    obtain ⟨hd, -⟩ := List.cons.inj heq
    exact ⟨more, by rw [hc, hd]⟩

/-- A number is read off as a whole before what does not go on with it. -/
theorem splitNumber_append {chars rest : List Char} (hwhole : (splitNumber chars).2 = [])
    (h : ∀ c ∈ rest.head?, ¬IsNumberPart c) :
    splitNumber (chars ++ rest) = ((splitNumber chars).1, rest) := by
  unfold splitNumber at hwhole ⊢
  dsimp only at hwhole ⊢
  split at hwhole
  · exact splitBase_append 2 hwhole h
  · exact splitBase_append 2 hwhole h
  · exact splitBase_append 8 hwhole h
  · exact splitBase_append 8 hwhole h
  · exact splitBase_append 16 hwhole h
  · exact splitBase_append 16 hwhole h
  · rename_i hb hB ho hO hx hX
    have hno {a b : Char} {more : List Char} (ha : IsNumberPart a) (hb : IsNumberPart b)
        (hne : ∀ more, chars = a :: b :: more → False) : chars ++ rest ≠ a :: b :: more :=
      fun heq => (exists_of_append_eq ha hb h heq).elim hne
    split
    · exact absurd ‹_› (hno (by decide) (by decide) hb)
    · exact absurd ‹_› (hno (by decide) (by decide) hB)
    · exact absurd ‹_› (hno (by decide) (by decide) ho)
    · exact absurd ‹_› (hno (by decide) (by decide) hO)
    · exact absurd ‹_› (hno (by decide) (by decide) hx)
    · exact absurd ‹_› (hno (by decide) (by decide) hX)
    · rw [splitDecimal_append h hwhole]

/-- A number has no quotes in it and no operators but signs. -/
theorem isNumberPart_of_splitNumber {chars : List Char} (hwhole : (splitNumber chars).2 = []) :
    ∀ c ∈ chars, IsNumberPart c := by
  have hbase (base : Nat) {mark : Char} {digits : List Char} (hmark : IsNumberPart mark)
      (hdigits : digits.dropWhile (isBaseDigit base) = []) :
      ∀ c ∈ '0' :: mark :: digits, IsNumberPart c := by
    have hall : ∀ c ∈ digits, isBaseDigit base c = true := by
      simpa [List.dropWhile_eq_nil_iff] using hdigits
    refine List.forall_mem_cons.mpr ⟨by decide, List.forall_mem_cons.mpr ⟨hmark, fun c hc => ?_⟩⟩
    exact Or.inl (isWordPart_of_isBaseDigit (hall c hc))
  unfold splitNumber at hwhole
  dsimp only at hwhole
  split at hwhole
  · exact hbase 2 (by decide) hwhole
  · exact hbase 2 (by decide) hwhole
  · exact hbase 8 (by decide) hwhole
  · exact hbase 8 (by decide) hwhole
  · exact hbase 16 (by decide) hwhole
  · exact hbase 16 (by decide) hwhole
  · exact isNumberPart_of_splitDecimal hwhole

/-! ## Lexemes and white space -/

theorem isWordPart_of_isWordStart {c : Char} (h : isWordStart c = true) : isWordPart c = true := by
  simp only [isWordStart, Bool.or_eq_true] at h
  simp only [isWordPart, Char.isAlphanum, Bool.or_eq_true]
  exact h.imp Or.inl id

theorem isDigit_of_isWordStart {c : Char} (h : isWordStart c = true) : c.isDigit = false := by
  by_contra hdigit
  simp only [Bool.not_eq_false, Char.isDigit, Bool.and_eq_true, decide_eq_true_eq] at hdigit
  simp only [isWordStart, isAlpha_iff, Bool.or_eq_true, decide_eq_true_eq] at h
  have hlow : 48 ≤ c.toNat := hdigit.1
  have hhigh : c.toNat ≤ 57 := hdigit.2
  rcases h with (⟨h, -⟩ | ⟨h, -⟩) | rfl
  · have h : 65 ≤ c.toNat := h
    omega
  · have h : 97 ≤ c.toNat := h
    omega
  · revert hhigh
    decide

theorem isGap_of_isWordPart {c : Char} (h : isWordPart c = true) : isGap c = false := by
  by_contra hgap
  rw [isWordPart_of_isGap (by simpa using hgap)] at h
  cases h

theorem isWordPart_of_isDigit {c : Char} (h : c.isDigit = true) : isWordPart c = true := by
  simp [isWordPart, Char.isAlphanum, h]

/-- A lexeme is not empty, and starts with no white space. -/
theorem Lexeme.exists_chars (x : Lexeme) : ∃ c more, x.chars = c :: more ∧ isGap c = false := by
  cases x with
  | sign s => cases s <;> exact ⟨_, _, rfl, by decide⟩
  | word first more hfirst hmore =>
    exact ⟨first, more, rfl, isGap_of_isWordPart (isWordPart_of_isWordStart hfirst)⟩
  | number first more hfirst hwhole =>
    exact ⟨first, more, rfl, isGap_of_isWordPart (isWordPart_of_isDigit hfirst)⟩
  | literal quote inside hquote hinside =>
    exact ⟨quote, inside ++ [quote], rfl, by rcases hquote with rfl | rfl <;> decide⟩

/-- A word is split off where it does not go on. -/
theorem splitToken_word {first : Char} {more rest : List Char} (hfirst : isWordStart first = true)
    (hmore : ∀ c ∈ more, isWordPart c = true) (h : ∀ c ∈ rest.head?, isWordPart c = false) :
    splitToken (first :: (more ++ rest)) = (.word (String.ofList (first :: more)), rest) := by
  have hquote : ¬(first = '"' ∨ first = '\'') := by
    rintro (rfl | rfl) <;> exact absurd hfirst (by decide)
  have hall : ∀ c ∈ first :: more, isWordPart c = true :=
    List.forall_mem_cons.mpr ⟨isWordPart_of_isWordStart hfirst, hmore⟩
  obtain ⟨htake, hdrop⟩ := span_append hall h
  rw [splitToken.eq_def, splitSign?_eq_none (Or.inl hfirst)]
  dsimp only
  rw [if_neg hquote, isDigit_of_isWordStart hfirst, if_neg Bool.false_ne_true, if_pos hfirst,
    ← List.cons_append, htake, hdrop]

/-- Whether a lexeme ends before a text, as the text does not go on with it. A literal always
does. -/
def Lexeme.Ends : Lexeme → List Char → Prop
  | sign s, rest => ∀ c ∈ rest.head?, c ∉ s.goesOn
  | word .., rest => ∀ c ∈ rest.head?, isWordPart c = false
  | number .., rest => ∀ c ∈ rest.head?, ¬IsNumberPart c
  | literal .., _ => True

instance (x : Lexeme) (rest : List Char) : Decidable (x.Ends rest) :=
  match x with
  | .sign _ | .word .. | .number .. => Option.decidableForallMem rest.head?
  | .literal .. => instDecidableTrue

/-- A lexeme ends before white space. -/
theorem Stops.ends {rest : List Char} (h : Stops rest) (x : Lexeme) : x.Ends rest := by
  cases x with
  | sign s =>
    intro c hc
    rcases isGap_iff.mp (h c hc) with rfl | rfl | rfl | rfl | rfl <;> cases s <;> decide
  | word first more hfirst hmore => exact fun c hc => isWordPart_of_isGap (h c hc)
  | number first more hfirst hwhole =>
    intro c hc
    rcases isGap_iff.mp (h c hc) with rfl | rfl | rfl | rfl | rfl <;> decide
  | literal quote inside hquote hinside => trivial

/-- Where it ends a lexeme is split off, unless it is faulty. -/
theorem splitToken_chars (x : Lexeme) {rest : List Char} (h : x.Ends rest) :
    (splitToken (x.chars ++ rest)).1 = x.token ∧
      (x.token.isFault = false → (splitToken (x.chars ++ rest)).2 = rest) := by
  cases x with
  | sign s =>
    rw [splitToken.eq_def, Lexeme.chars, splitSign?_chars s h]
    exact ⟨rfl, fun _ => rfl⟩
  | word first more hfirst hmore =>
    rw [Lexeme.chars, List.cons_append,
      splitToken_word hfirst hmore h]
    exact ⟨rfl, fun _ => rfl⟩
  | number first more hfirst hwhole =>
    have hquote : ¬(first = '"' ∨ first = '\'') := by
      rintro (rfl | rfl) <;> exact absurd hfirst (by decide)
    rw [splitToken.eq_def, Lexeme.chars, List.cons_append, splitSign?_eq_none (Or.inr (Or.inl hfirst))]
    dsimp only
    rw [if_neg hquote, if_pos hfirst, ← List.cons_append, splitNumber_append hwhole h]
    exact ⟨rfl, fun _ => rfl⟩
  | literal quote inside hquote hinside =>
    have hback : quote ≠ '\\' := by rcases hquote with rfl | rfl <;> decide
    rw [splitToken.eq_def, Lexeme.chars, List.cons_append, List.cons_append, List.append_assoc,
      splitSign?_eq_none (Or.inr (Or.inr hquote))]
    dsimp only
    rw [if_pos hquote, List.singleton_append, splitLiteral?_inside hback hinside]
    dsimp only [Lexeme.token]
    cases unescape (inside.length + 1) inside with
    | ok value => exact ⟨rfl, fun _ => rfl⟩
    | error fault => exact ⟨rfl, nofun⟩

/-- A text that does not start with a brace or with one of the signs before it does not end the
region. -/
theorem splitEnd?_eq_none {c : Char} (rest : List Char) (h : c ≠ '-' ∧ c ≠ '+' ∧ c ≠ '\x7d') :
    splitEnd? false (c :: rest) = none := by
  unfold splitEnd?
  split
  · rename_i heq
    exact absurd (List.cons.inj heq).1 h.1
  · rename_i heq
    exact absurd (List.cons.inj heq).1 h.2.1
  · rename_i heq
    exact if_neg ((List.cons.inj heq).1 ▸ h.2.2)
  · rfl

/-- Without a brace after the first character the region does not end. -/
theorem splitEnd?_cons (c : Char) {rest : List Char} (h : ∀ d ∈ rest.head?, d ≠ '\x7d') :
    splitEnd? false (c :: rest) = none := by
  have hbrace {d : Char} {more : List Char} (hrest : rest = d :: more) : d ≠ '\x7d' :=
    h d (by rw [hrest]; rfl)
  unfold splitEnd?
  split
  · rename_i heq
    exact if_neg (hbrace (List.cons.inj heq).2)
  · rename_i heq
    exact if_neg (hbrace (List.cons.inj heq).2)
  · rename_i heq
    exact absurd rfl (hbrace (List.cons.inj heq).2)
  · rfl

/-- A lexeme that ends does not end the region. -/
theorem splitEnd?_chars (x : Lexeme) {rest : List Char} (h : x.Ends rest) :
    splitEnd? false (x.chars ++ rest) = none := by
  have hword {c : Char} (hc : isWordPart c = true) : c ≠ '-' ∧ c ≠ '+' ∧ c ≠ '\x7d' := by
    refine ⟨?_, ?_, ?_⟩ <;> rintro rfl <;> exact absurd hc (by decide)
  cases x with
  | sign s =>
    have hbrace (hs : '\x7d' ∈ s.goesOn) : ∀ d ∈ rest.head?, d ≠ '\x7d' :=
      fun d hd heq => h d hd (heq ▸ hs)
    cases s <;> first
      | exact splitEnd?_eq_none _ (by decide)
      | exact splitEnd?_cons _ (hbrace (by decide))
  | word first more hfirst hmore =>
    exact splitEnd?_eq_none _ (hword (isWordPart_of_isWordStart hfirst))
  | number first more hfirst hwhole =>
    exact splitEnd?_eq_none _ (hword (isWordPart_of_isDigit hfirst))
  | literal quote inside hquote hinside =>
    exact splitEnd?_eq_none _ (by rcases hquote with rfl | rfl <;> decide)

/-- White space, or nothing. -/
def IsSpace (text : List Char) : Prop := ∀ c ∈ text, isGap c = true

/-- Whether a text is lexemes with the given tokens, and white space before each one of them and
after the last one. -/
inductive Spells : List Char → List Token → Prop
  | space {space : List Char} : IsSpace space → Spells space []
  | lexeme {space rest : List Char} {ts : List Token} (x : Lexeme) : IsSpace space → Stops rest →
      Spells rest ts → Spells (space ++ (x.chars ++ rest)) (x.token :: ts)

/-- Whether a text is lexemes with white space before them and after the last one, if there is any,
where each lexeme ends before the rest of the text. -/
inductive Writes : List Char → List Lexeme → Prop
  | space {space : List Char} : IsSpace space → Writes space []
  | lexeme {space rest : List Char} {xs : List Lexeme} (x : Lexeme) : IsSpace space →
      x.Ends rest → Writes rest xs → Writes (space ++ (x.chars ++ rest)) (x :: xs)

/-- Lexemes between white space end there. -/
theorem Spells.exists_writes {text : List Char} {ts : List Token} (h : Spells text ts) :
    ∃ xs, Writes text xs ∧ xs.map Lexeme.token = ts := by
  induction h with
  | space hspace => exact ⟨[], .space hspace, rfl⟩
  | lexeme x hspace hstops _ ih =>
    obtain ⟨xs, hxs, rfl⟩ := ih
    exact ⟨x :: xs, .lexeme x hspace (hstops.ends x) hxs, rfl⟩

theorem IsSpace.append {a b : List Char} (ha : IsSpace a) (hb : IsSpace b) : IsSpace (a ++ b) :=
  List.forall_mem_append.mpr ⟨ha, hb⟩

/-- White space before a text that stops or goes on with white space. -/
theorem IsSpace.stops_append {space rest : List Char} (h : IsSpace space) (hrest : Stops rest) :
    Stops (space ++ rest) := by
  cases space with
  | nil => exact hrest
  | cons c space => exact stops_cons.mpr (h c List.mem_cons_self)

/-- More white space before a text makes no difference. -/
theorem Spells.append_space {space text : List Char} {ts : List Token} (hspace : IsSpace space)
    (h : Spells text ts) : Spells (space ++ text) ts := by
  cases h with
  | space hmore => exact .space (hspace.append hmore)
  | lexeme x hmore hstops hrest =>
    rw [← List.append_assoc]
    exact .lexeme x (hspace.append hmore) hstops hrest

/-- One step of the scan inside a region that does not end. -/
theorem scan_inside {c : Char} {rest : List Char} (hend : splitEnd? false (c :: rest) = none)
    (fuel : Nat) (nesting : Int) :
    scan (fuel + 1) (.inside false nesting) (c :: rest) =
      if isGap c then scan fuel (.inside false nesting) rest
      else
        match splitToken (c :: rest) with
        | (.sign s, rest) => .sign s :: scan fuel (.inside false (nesting + s.nesting)) rest
        | (.fault f, _) => [.fault f]
        | (token, rest) => token :: scan fuel (.inside false nesting) rest := by
  have hnone : (if nesting = 0 then splitEnd? false (c :: rest) else none) = none := by
    rw [hend, ite_self]
  rw [scan.eq_def]
  dsimp only
  generalize (if nesting = 0 then splitEnd? false (c :: rest) else none) = o at hnone ⊢
  subst hnone
  rfl

theorem scan_space {space : List Char} (h : IsSpace space) (text : List Char) (nesting : Int)
    (fuel : Nat) : scan (fuel + space.length) (.inside false nesting) (space ++ text) =
      scan fuel (.inside false nesting) text := by
  induction space with
  | nil => rfl
  | cons c space ih =>
    obtain ⟨hc, hspace⟩ := List.forall_mem_cons.mp h
    have hne : c ≠ '-' ∧ c ≠ '+' ∧ c ≠ '\x7d' := by
      refine ⟨?_, ?_, ?_⟩ <;> rintro rfl <;> exact absurd hc (by decide)
    rw [List.length_cons, ← Nat.add_assoc, List.cons_append,
      scan_inside (splitEnd?_eq_none _ hne), if_pos hc]
    exact ih hspace

theorem scan_lexeme (x : Lexeme) {rest : List Char} (h : x.Ends rest) (fuel : Nat)
    (nesting : Int) : ∃ nesting', scan (fuel + 1) (.inside false nesting) (x.chars ++ rest) =
      x.token :: if x.token.isFault then [] else scan fuel (.inside false nesting') rest := by
  obtain ⟨c, more, hchars, hgap⟩ := x.exists_chars
  have hend := splitEnd?_chars x h
  obtain ⟨htoken, hrest⟩ := splitToken_chars x h
  rw [hchars, List.cons_append] at hend htoken hrest ⊢
  rw [scan_inside hend, hgap, if_neg Bool.false_ne_true]
  cases hs : splitToken (c :: (more ++ rest)) with
  | mk token after =>
    rw [hs] at htoken hrest
    obtain rfl : token = x.token := htoken
    cases ht : x.token with
    | fault f => exact ⟨nesting, rfl⟩
    | sign s =>
      obtain rfl : after = rest := hrest (by rw [ht]; rfl)
      exact ⟨nesting + s.nesting, rfl⟩
    | _ =>
      obtain rfl : after = rest := hrest (by rw [ht]; rfl)
      exact ⟨nesting, rfl⟩

theorem scan_of_writes {text : List Char} {xs : List Lexeme} (h : Writes text xs) {fuel : Nat}
    (hfuel : text.length < fuel) (nesting : Int) :
    scan fuel (.inside false nesting) text = upToFault (xs.map Lexeme.token) := by
  induction h generalizing fuel nesting with
  | @space space hspace =>
    obtain ⟨k, rfl⟩ := Nat.exists_eq_add_of_lt hfuel
    have hscan := scan_space hspace [] nesting (k + 1)
    rw [List.append_nil] at hscan
    rw [show space.length + k + 1 = k + 1 + space.length by omega, hscan, scan.eq_def]
    simp [splitEnd?, upToFault]
  | @lexeme space rest xs x hspace hends _ ih =>
    obtain ⟨c, more, hchars, -⟩ := x.exists_chars
    simp only [List.length_append, hchars, List.length_cons] at hfuel
    obtain ⟨k, rfl⟩ := Nat.exists_eq_add_of_lt hfuel
    have hsplit : space.length + (more.length + 1 + rest.length) + k + 1 =
        more.length + 1 + rest.length + k + 1 + space.length := by omega
    rw [hsplit, scan_space hspace]
    obtain ⟨nesting', hscan⟩ := scan_lexeme x hends (more.length + 1 + rest.length + k) nesting
    rw [hscan, ih (by omega) nesting', List.map_cons, upToFault]

/-- The tokens of a text are those of its lexemes, wherever there is white space. -/
theorem ofExpression_of_writes {text : List Char} {xs : List Lexeme} (h : Writes text xs) :
    Token.ofExpression text = upToFault (xs.map Lexeme.token) :=
  scan_of_writes h (Nat.lt_succ_self _) 0

/-- The tokens of a text do not depend on the white space between its lexemes. -/
theorem ofExpression_of_spells {text : List Char} {ts : List Token} (h : Spells text ts) :
    Token.ofExpression text = upToFault ts := by
  obtain ⟨xs, hxs, rfl⟩ := h.exists_writes
  exact ofExpression_of_writes hxs

end Scaffold.Stencil
