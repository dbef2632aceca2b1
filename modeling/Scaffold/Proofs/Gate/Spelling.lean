import Scaffold.Gate
import Scaffold.Proofs.Stencil.Lexemes

/-!
# Both spellings of gates

A `Phrase` is lexemes and connectives with white space between them, and it is written with the
symbols of the connectives or with their words. Either way the operators that are spelled out leave
a text of the same lexemes (`Phrase.spells`), as an operator in a literal stays what it is and a
symbol becomes its word between blanks. An expression is read from its tokens alone, so a gate comes
to the same decision, or to the same kind of fault, in both spellings (`evaluate_spellings`).
-/

namespace Scaffold.Gate

open Stencil

/-! ## Phrases -/

/-- What joins or negates conditions. -/
inductive Connective where
  | and
  | or
  | not
deriving DecidableEq, Repr

/-- How connectives are written. -/
inductive Spelling where
  | symbols
  | words
deriving DecidableEq, Repr

namespace Connective

/-- The word of a connective. -/
def word : Connective → List Char
  | and => ['a', 'n', 'd']
  | or => ['o', 'r']
  | not => ['n', 'o', 't']

/-- The symbol of a connective. -/
def symbol : Connective → List Char
  | and => ['&', '&']
  | or => ['|', '|']
  | not => ['!']

/-- The lexeme that the word of a connective is. -/
def lexeme : Connective → Lexeme
  | and => .word 'a' ['n', 'd'] (by decide) (List.all_eq_true.mp (by decide))
  | or => .word 'o' ['r'] (by decide) (List.all_eq_true.mp (by decide))
  | not => .word 'n' ['o', 't'] (by decide) (List.all_eq_true.mp (by decide))

theorem chars_lexeme (c : Connective) : c.lexeme.chars = c.word := by cases c <;> rfl

end Connective

/-- A lexeme or a connective. -/
inductive Piece where
  | lexeme (x : Lexeme)
  | connective (c : Connective)

namespace Piece

/-- The characters of a piece. -/
def chars (s : Spelling) : Piece → List Char
  | lexeme x => x.chars
  | connective c =>
    match s with
    | .symbols => c.symbol
    | .words => c.word

/-- The lexeme of a piece, which is a word for a connective. -/
def toLexeme : Piece → Lexeme
  | lexeme x => x
  | connective c => c.lexeme

end Piece

/-- White space between two pieces. -/
structure Gap where
  first : Char
  more : List Char
  isSpace : IsSpace (first :: more)

/-- The characters of white space. -/
def Gap.chars (g : Gap) : List Char := g.first :: g.more

/-- Pieces with white space between them, and possibly before the first one and after the last
one. -/
structure Phrase where
  lead : List Char
  isSpace : IsSpace lead
  /-- The pieces that white space stands after. -/
  spaced : List (Piece × Gap)
  /-- The piece at the end of the text. -/
  last : Option Piece

namespace Phrase

/-- The characters of spaced pieces and of one at the end. -/
def charsOf (s : Spelling) (last : Option Piece) : List (Piece × Gap) → List Char
  | [] => last.elim [] (·.chars s)
  | (p, g) :: rest => p.chars s ++ (g.chars ++ charsOf s last rest)

/-- A phrase as it is written. -/
def text (s : Spelling) (p : Phrase) : String :=
  String.ofList (p.lead ++ charsOf s p.last p.spaced)

/-- The pieces of a phrase. -/
def pieces (p : Phrase) : List Piece := p.spaced.map (·.1) ++ p.last.toList

/-- The tokens of a phrase. -/
def tokens (p : Phrase) : List Token := p.pieces.map (·.toLexeme.token)

end Phrase

/-! ## Spelling operators out -/

/-- A character that starts no literal and no operator stays as it is. -/
theorem spellOutFrom_cons {c : Char} {rest : List Char} (hquote : ¬(c = '"' ∨ c = '\''))
    (hdouble : c = '&' ∨ c = '|' → rest.head? ≠ some c) (hnot : c ≠ '!') :
    spellOutFrom none (c :: rest) = c :: spellOutFrom none rest := by
  rw [spellOutFrom.eq_def]
  dsimp only
  rw [if_neg hquote]
  split
  · exact absurd rfl (hdouble (Or.inl rfl))
  · exact absurd rfl (hdouble (Or.inr rfl))
  · exact absurd rfl hnot
  · exact absurd rfl hnot
  · rfl

/-- Characters that start no literal and no operator stay as they are. -/
theorem spellOutFrom_append {chars : List Char} (h : ∀ c ∈ chars, c ∉ ['"', '\'', '&', '|', '!'])
    (rest : List Char) : spellOutFrom none (chars ++ rest) = chars ++ spellOutFrom none rest := by
  induction chars with
  | nil => rfl
  | cons c chars ih =>
    obtain ⟨hc, hchars⟩ := List.forall_mem_cons.mp h
    simp only [List.mem_cons, List.not_mem_nil, or_false, not_or] at hc
    obtain ⟨hdouble, hsingle, hand, hor, hnot⟩ := hc
    rw [List.cons_append, spellOutFrom_cons (not_or.mpr ⟨hdouble, hsingle⟩)
      (fun h => (h.elim hand hor).elim) hnot, ih hchars, List.cons_append]

/-- What is inside of quotes stays as it is, and ends at the quote after it. -/
theorem spellOutFrom_inside {quote : Char} (hquote : quote ≠ '\\') {inside : List Char}
    (h : Inside quote inside) (rest : List Char) :
    spellOutFrom (some quote) (inside ++ quote :: rest) =
      inside ++ quote :: spellOutFrom none rest := by
  induction h with
  | nil =>
    rw [List.nil_append, spellOutFrom.eq_def]
    dsimp only
    rw [if_neg hquote, if_pos rfl, List.nil_append]
  | escape e _ ih =>
    rw [List.cons_append, List.cons_append, spellOutFrom, if_pos rfl, ih]
    rfl
  | plain hc hq _ ih =>
    rw [List.cons_append, spellOutFrom.eq_def]
    dsimp only
    rw [if_neg hc, if_neg hq, ih, List.cons_append]

theorem not_mem_of_isWordPart {c : Char} (h : isWordPart c = true) :
    c ∉ ['"', '\'', '&', '|', '!'] := by
  intro hc
  simp only [List.mem_cons, List.not_mem_nil, or_false] at hc
  rcases hc with rfl | rfl | rfl | rfl | rfl <;> exact absurd h (by decide)

theorem not_mem_of_isGap {c : Char} (h : isGap c = true) : c ∉ ['"', '\'', '&', '|', '!'] := by
  rcases isGap_iff.mp h with rfl | rfl | rfl | rfl | rfl <;> decide

/-- A lexeme that ends stays as it is. -/
theorem spellOutFrom_lexeme (x : Lexeme) {rest : List Char} (h : x.Ends rest) :
    spellOutFrom none (x.chars ++ rest) = x.chars ++ spellOutFrom none rest := by
  cases x with
  | sign s =>
    cases s with
    | notEquals => rfl
    | pipe =>
      exact spellOutFrom_cons (by decide) (fun _ hhead => h '|' hhead (by decide)) (by decide)
    | _ => exact spellOutFrom_append (by simp [Lexeme.chars, Sign.chars]) rest
  | word first more hfirst hmore =>
    refine spellOutFrom_append (List.forall_mem_cons.mpr ⟨?_, fun c hc => ?_⟩) rest
    · exact not_mem_of_isWordPart (isWordPart_of_isWordStart hfirst)
    · exact not_mem_of_isWordPart (hmore c hc)
  | number first more hfirst hwhole =>
    refine spellOutFrom_append (fun c hc => ?_) rest
    rcases isNumberPart_of_splitNumber hwhole c hc with hword | rfl | rfl | rfl
    · exact not_mem_of_isWordPart hword
    · decide
    · decide
    · decide
  | literal quote inside hquote hinside =>
    have hback : quote ≠ '\\' := by rcases hquote with rfl | rfl <;> decide
    rw [Lexeme.chars, List.cons_append, List.cons_append, List.append_assoc, spellOutFrom.eq_def]
    dsimp only
    rw [if_pos hquote, List.singleton_append, spellOutFrom_inside hback hinside]
    simp

/-- The symbol of a connective becomes its word between blanks. -/
theorem spellOutFrom_symbol (c : Connective) {rest : List Char} (h : Stops rest) :
    spellOutFrom none (c.symbol ++ rest) = ' ' :: (c.word ++ ' ' :: spellOutFrom none rest) := by
  cases c with
  | and => rfl
  | or => rfl
  | not =>
    rcases h.eq_nil_or with rfl | ⟨c, rest, rfl, hc⟩
    · rfl
    · rcases hc with rfl | rfl | rfl | rfl | rfl <;> rfl

/-! ## The lexemes of a phrase -/

/-- A piece before white space leaves its lexeme, in either spelling. -/
theorem Piece.exists_spellOutFrom (s : Spelling) (p : Piece) {rest : List Char} (h : Stops rest) :
    ∃ before after, IsSpace before ∧ IsSpace after ∧ spellOutFrom none (p.chars s ++ rest) =
      before ++ (p.toLexeme.chars ++ (after ++ spellOutFrom none rest)) := by
  have hnil : IsSpace [] := nofun
  have hblank : IsSpace [' '] := List.forall_mem_singleton.mpr (by decide)
  cases p with
  | lexeme x => exact ⟨[], [], hnil, hnil, spellOutFrom_lexeme x (h.ends x)⟩
  | connective c =>
    cases s with
    | symbols =>
      refine ⟨[' '], [' '], hblank, hblank, ?_⟩
      rw [Piece.chars, spellOutFrom_symbol c h, Piece.toLexeme, Connective.chars_lexeme]
      simp
    | words =>
      refine ⟨[], [], hnil, hnil, ?_⟩
      rw [Piece.chars, ← Connective.chars_lexeme]
      exact spellOutFrom_lexeme c.lexeme (h.ends c.lexeme)

theorem Gap.stops (g : Gap) (rest : List Char) : Stops (g.chars ++ rest) :=
  stops_cons.mpr (g.isSpace g.first List.mem_cons_self)

/-- White space stays as it is. -/
theorem spellOutFrom_space {space : List Char} (h : IsSpace space) (rest : List Char) :
    spellOutFrom none (space ++ rest) = space ++ spellOutFrom none rest :=
  spellOutFrom_append (fun c hc => not_mem_of_isGap (h c hc)) rest

/-- A text of lexemes alone has no operators to spell out. -/
theorem spellOutFrom_of_writes {text : List Char} {xs : List Lexeme} (h : Writes text xs) :
    spellOutFrom none text = text := by
  induction h with
  | @space space hspace =>
    have hnil := spellOutFrom_space hspace []
    rw [List.append_nil] at hnil
    exact hnil.trans (List.append_nil space)
  | lexeme x hspace hends _ ih =>
    rw [spellOutFrom_space hspace, spellOutFrom_lexeme x hends, ih]

namespace Phrase

/-- The pieces of a phrase leave their lexemes, in either spelling. -/
theorem spells_charsOf (s : Spelling) (last : Option Piece) : ∀ spaced : List (Piece × Gap),
    Spells (spellOutFrom none (charsOf s last spaced))
      ((spaced.map (·.1) ++ last.toList).map (·.toLexeme.token))
  | [] => by
    cases last with
    | none => exact .space nofun
    | some p =>
      obtain ⟨before, after, hbefore, hafter, heq⟩ := p.exists_spellOutFrom s stops_nil
      rw [List.append_nil] at heq
      rw [charsOf, Option.elim_some, heq]
      exact .lexeme _ hbefore (hafter.stops_append stops_nil)
        (.append_space hafter (.space nofun))
  | (p, g) :: spaced => by
    obtain ⟨before, after, hbefore, hafter, heq⟩ :=
      p.exists_spellOutFrom s (g.stops (charsOf s last spaced))
    have hmore : spellOutFrom none (g.chars ++ charsOf s last spaced) =
        g.chars ++ spellOutFrom none (charsOf s last spaced) := spellOutFrom_space g.isSpace _
    rw [charsOf, heq, hmore]
    exact .lexeme _ hbefore (hafter.stops_append (g.stops _))
      (.append_space hafter (.append_space g.isSpace (spells_charsOf s last spaced)))

/-- With its operators spelled out, a phrase is its lexemes in either spelling. -/
theorem spells (s : Spelling) (p : Phrase) : Spells (spellOut (p.text s)).toList p.tokens := by
  rw [spellOut, text, String.toList_ofList, String.toList_ofList, spellOutFrom_space p.isSpace]
  exact .append_space p.isSpace (spells_charsOf s p.last p.spaced)

/-- Without connectives a phrase is spelled in one way. -/
theorem text_eq {p : Phrase} (h : ∀ c, .connective c ∉ p.pieces) :
    p.text .symbols = p.text .words := by
  have hpiece {q : Piece} (hq : q ∈ p.pieces) : q.chars .symbols = q.chars .words := by
    cases q with
    | lexeme x => rfl
    | connective c => exact (h c hq).elim
  have hlast : p.last.elim [] (·.chars .symbols) = p.last.elim [] (·.chars .words) := by
    cases hl : p.last with
    | none => rfl
    | some q => exact hpiece (List.mem_append_right _ (by simp [hl]))
  have hspaced : ∀ spaced : List (Piece × Gap), (∀ e ∈ spaced, e.1 ∈ p.pieces) →
      charsOf .symbols p.last spaced = charsOf .words p.last spaced := by
    intro spaced hmem
    induction spaced with
    | nil => exact hlast
    | cons e spaced ih =>
      rw [charsOf, charsOf, hpiece (hmem e List.mem_cons_self),
        ih fun e he => hmem e (List.mem_cons_of_mem _ he)]
  rw [text, text, hspaced p.spaced fun e he =>
    List.mem_append_left _ (List.mem_map_of_mem he)]

/-- A piece of a phrase is somewhere in its text. -/
theorem isInfix_text (s : Spelling) {p : Phrase} {q : Piece} (h : q ∈ p.pieces) :
    q.chars s <:+: (p.text s).toList := by
  have hspaced : ∀ spaced : List (Piece × Gap), q ∈ spaced.map (·.1) ++ p.last.toList →
      q.chars s <:+: charsOf s p.last spaced := by
    intro spaced hmem
    induction spaced with
    | nil =>
      have hlast : p.last = some q := by simpa using hmem
      rw [charsOf, hlast]
      exact List.infix_rfl
    | cons e spaced ih =>
      rcases List.mem_cons.mp hmem with rfl | hmem
      · exact (List.prefix_append _ _).isInfix
      · exact (ih hmem).trans <| (List.suffix_append _ _).isInfix.trans
          (List.suffix_append _ _).isInfix
  rw [text, String.toList_ofList]
  exact (hspaced p.spaced h).trans (List.suffix_append _ _).isInfix

/-- A phrase with a connective is none of the words that are decided as they stand. -/
theorem evaluate_text (s : Spelling) {p : Phrase} {c : Connective}
    (h : .connective c ∈ p.pieces) (context : Context) :
    evaluate context (p.text s) = holds context (spellOut (p.text s)) := by
  have hwords : ∀ word ∈ ["", "true", "always", "false", "never"],
      ¬(Piece.connective c).chars s <:+: word.toList := by
    cases s <;> cases c <;> decide +kernel
  have hne {word : String} (hword : word ∈ ["", "true", "always", "false", "never"]) :
      p.text s ≠ word := fun heq => hwords word hword (heq ▸ isInfix_text s h)
  have hopen : isOpen (p.text s) = false := by
    simp [isOpen, hne]
  have hshut : isShut (p.text s) = false := by
    simp [isShut, hne]
  rw [evaluate, hopen, hshut]
  rfl

end Phrase

/-! ## Decisions -/

/-- A fault of a gate, told about another expression. -/
def Fault.about (expression : String) : Fault → Fault
  | unreadable _ cause => unreadable expression cause
  | undecided _ cause => undecided expression cause

/-- An expression is read from its tokens alone. -/
theorem ofText_congr {a b : List Char} (h : Token.ofExpression a = Token.ofExpression b) :
    Expr.ofText a = Expr.ofText b := by
  unfold Expr.ofText
  rw [h]

theorem holds_congr (context : Context) {a b : String}
    (h : Token.ofExpression a.toList = Token.ofExpression b.toList) (expression : String) :
    (holds context a).mapError (Fault.about expression) =
      (holds context b).mapError (Fault.about expression) := by
  unfold holds read
  rw [ofText_congr h]
  cases Expr.ofText b.toList with
  | error cause => rfl
  | ok e =>
    simp only [Except.mapError, bind, Except.bind]
    cases e.value true context.root <;> rfl

/-- A gate comes to the same decision in both spellings, or to the same fault about another
expression. -/
theorem evaluate_spellings (context : Context) (p : Phrase) (expression : String) :
    (evaluate context (p.text .symbols)).mapError (Fault.about expression) =
      (evaluate context (p.text .words)).mapError (Fault.about expression) := by
  by_cases h : ∃ c, .connective c ∈ p.pieces
  · obtain ⟨c, hc⟩ := h
    rw [Phrase.evaluate_text .symbols hc, Phrase.evaluate_text .words hc]
    refine holds_congr context ?_ expression
    rw [ofExpression_of_spells (p.spells .symbols), ofExpression_of_spells (p.spells .words)]
  · rw [Phrase.text_eq (not_exists.mp h)]

end Scaffold.Gate
