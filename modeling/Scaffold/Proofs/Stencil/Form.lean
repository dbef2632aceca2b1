import Mathlib.Data.List.Infix
import Scaffold.Proofs.Stencil.Lookup

/-!
# Forms

A form is a text with holes for answers in it. No region starts in the text before a hole, nor
with its last character and the brace of the hole, and none in the text after the last hole.

A form is split into its texts and the tokens of its holes (`Form.ofStencil`), and is read as just
that (`Form.ofText`). So what it prints are the texts with the answers in the holes
(`Form.render`), whatever the answers are : they are not read as parts of the stencil, and neither
blanks nor characters of markup are changed in them.
-/

namespace Scaffold.Stencil

/-- A word of the language, as it may stand after a dot. -/
structure Word where
  first : Char
  more : List Char
  isStart : isWordStart first = true
  isPart : ∀ c ∈ more, isWordPart c = true

namespace Word

/-- The characters of a word. -/
def chars (w : Word) : List Char := w.first :: w.more

/-- The text of a word. -/
def text (w : Word) : String := String.ofList w.chars

/-- What a hole starts with. -/
def lead : String := "\x7b\x7b Answers."

/-- What a hole ends with. -/
def trail : String := " \x7d\x7d"

/-- The hole for the answer that has a word for its name. The blanks are part of it. -/
def hole (w : Word) : List Char := lead.toList ++ (w.chars ++ trail.toList)

/-- The tokens of a hole. -/
def holeTokens (w : Word) : List Token :=
  [.valueStart, .word "Answers", .sign .dot, .word w.text, .valueEnd]

/-- The expression in a hole. -/
def answer (w : Word) : Expr := .attr (.var "Answers") w.text

end Word

/-- Whether no region starts in a text. -/
def Unmarked (text : List Char) : Prop := ∀ kind ∈ ['{', '%', '#'], ¬['{', kind] <:+: text

instance (text : List Char) : Decidable (Unmarked text) := List.decidableBAll _ _

/-- A text with holes for answers. -/
structure Form where
  /-- The holes, each with the text before it. -/
  holes : List (List Char × Word)
  /-- The text after the last hole. -/
  last : List Char
  unmarked : ∀ h ∈ holes, Unmarked (h.1 ++ ['{'])
  unmarkedLast : Unmarked last

namespace Form

/-- The characters of holes, each after its text, and of the text after them. -/
def charsOf (last : List Char) : List (List Char × Word) → List Char
  | [] => last
  | (piece, w) :: rest => piece ++ (w.hole ++ charsOf last rest)

/-- The characters with values in the holes. -/
def filledOf (values : String → String) (last : List Char) : List (List Char × Word) → List Char
  | [] => last
  | (piece, w) :: rest => piece ++ ((values w.text).toList ++ filledOf values last rest)

/-- A form as it is written. -/
def text (f : Form) : String := String.ofList (charsOf f.last f.holes)

/-- A form with values, by name, in its holes. -/
def filled (values : String → String) (f : Form) : String :=
  String.ofList (filledOf values f.last f.holes)

/-- The tokens of holes, each after its text, and of the text after them. -/
def tokensOf (last : List Char) : List (List Char × Word) → List Token
  | [] => textToken last
  | (piece, w) :: rest => textToken piece ++ (w.holeTokens ++ tokensOf last rest)

/-- A text as a piece of a stencil, unless there is nothing of it. -/
def textStmt (text : List Char) : List Stmt :=
  if text.isEmpty then [] else [.text (String.ofList text)]

/-- The pieces of a stencil that holes and texts are. -/
def stmtsOf (last : List Char) : List (List Char × Word) → List Stmt
  | [] => textStmt last
  | (piece, w) :: rest => textStmt piece ++ (.print w.answer :: stmtsOf last rest)

end Form

/-! ## Marks -/

/-- A part of a text has no marks that the text does not have. -/
theorem Unmarked.of_cons {c : Char} {text : List Char} (h : Unmarked (c :: text)) :
    Unmarked text := fun kind hkind hin => h kind hkind (List.infix_cons hin)

theorem Unmarked.ne_of_brace {c : Char} {text : List Char} (h : Unmarked ('{' :: c :: text)) :
    ¬(c = '{' ∨ c = '%' ∨ c = '#') := fun hc =>
  h c (by simpa using hc) ⟨[], text, rfl⟩

/-- One step of the search for a mark. -/
theorem splitMark_cons {c d : Char} {rest : List Char}
    (h : c = '{' → ¬(d = '{' ∨ d = '%' ∨ d = '#')) :
    splitMark (c :: d :: rest) = (c :: (splitMark (d :: rest)).1, (splitMark (d :: rest)).2) := by
  rw [splitMark.eq_def]
  split
  · rename_i heq
    cases heq
  · rename_i heq
    obtain ⟨hc, htail⟩ := List.cons.inj heq
    obtain ⟨rfl, rfl⟩ := List.cons.inj htail
    rw [if_neg (h hc), hc]
  · rename_i heq
    obtain ⟨rfl, rfl⟩ := List.cons.inj heq
    rfl

/-- A text without marks is text to its end. -/
theorem splitMark_eq {text : List Char} (h : Unmarked text) : splitMark text = (text, []) := by
  induction text with
  | nil => rfl
  | cons c text ih =>
    cases text with
    | nil => simp [splitMark]
    | cons d text =>
      rw [splitMark_cons fun hc => (hc ▸ h).ne_of_brace, ih h.of_cons]

/-- The first mark after a text without marks is found. -/
theorem splitMark_append {text : List Char} (h : Unmarked (text ++ ['{'])) (rest : List Char) :
    splitMark (text ++ '{' :: '{' :: rest) = (text, '{' :: rest) := by
  induction text with
  | nil => rfl
  | cons c text ih =>
    have hih := ih h.of_cons
    cases text with
    | nil =>
      rw [List.cons_append, List.nil_append, splitMark_cons fun hc => (hc ▸ h).ne_of_brace,
        ← List.nil_append ('{' :: '{' :: rest), hih]
    | cons d text =>
      rw [List.cons_append, List.cons_append, splitMark_cons fun hc => (hc ▸ h).ne_of_brace,
        ← List.cons_append, hih]

/-! ## Tokens -/

/-- A word inside a region is a token, and what stands after it is left. -/
theorem scan_word (w : Word) {rest : List Char} (h : ∀ c ∈ rest.head?, isWordPart c = false)
    (fuel : Nat) (nesting : Int) :
    scan (fuel + 1) (.inside false nesting) (w.chars ++ rest) =
      .word w.text :: scan fuel (.inside false nesting) rest := by
  have hne : w.first ≠ '-' ∧ w.first ≠ '+' ∧ w.first ≠ '\x7d' := by
    refine ⟨?_, ?_, ?_⟩ <;> intro heq <;> exact absurd w.isStart (by rw [heq]; decide)
  have hgap : isGap w.first = false := isGap_of_isWordPart (isWordPart_of_isWordStart w.isStart)
  rw [Word.chars, List.cons_append, scan_inside (splitEnd?_eq_none _ hne), hgap,
    if_neg Bool.false_ne_true, splitToken_word w.isStart w.isPart h]
  rfl

/-- The word that answers stand under. -/
def answersWord : Word :=
  ⟨'A', ['n', 's', 'w', 'e', 'r', 's'], by decide, List.all_eq_true.mp (by decide)⟩

/-- A hole is split into its tokens, and what stands after it is outside of regions. -/
theorem scan_hole (w : Word) (rest : List Char) (fuel : Nat) :
    scan (fuel + 6) (.inside false 0) (' ' :: (answersWord.chars ++ ('.' :: (w.chars ++
      (' ' :: '\x7d' :: '\x7d' :: rest))))) =
      .word "Answers" :: .sign .dot :: .word w.text :: .valueEnd ::
        scan fuel (.outside false) rest := by
  have hgap (text : List Char) (fuel : Nat) : scan (fuel + 1) (.inside false 0) (' ' :: text) =
      scan fuel (.inside false 0) text := by
    rw [scan_inside (splitEnd?_eq_none _ (by decide)), if_pos (by decide)]
  have hdot (text : List Char) (fuel : Nat) : scan (fuel + 1) (.inside false 0) ('.' :: text) =
      .sign .dot :: scan fuel (.inside false 0) text := by
    rw [scan_inside (splitEnd?_eq_none _ (by decide))]
    rfl
  have hhead {c : Char} (text : List Char) (hc : isWordPart c = false) :
      ∀ d ∈ (c :: text).head?, isWordPart d = false := fun d hd => Option.some.inj hd ▸ hc
  have hend : scan (fuel + 1) (.inside false 0) ('\x7d' :: '\x7d' :: rest) =
      .valueEnd :: scan fuel (.outside false) rest := by
    rw [scan.eq_def]
    rfl
  rw [hgap, scan_word answersWord (hhead _ (by decide)), hdot,
    scan_word w (hhead _ (by decide)), hgap, hend]
  rfl

theorem Word.hole_append (w : Word) (rest : List Char) :
    w.hole ++ rest = '{' :: '{' :: ' ' :: (answersWord.chars ++ ('.' :: (w.chars ++
      (' ' :: '\x7d' :: '\x7d' :: rest)))) := by
  have hlead : lead.toList = '{' :: '{' :: ' ' :: (answersWord.chars ++ ['.']) := by decide
  have htrail : trail.toList = [' ', '\x7d', '\x7d'] := by decide
  rw [hole, hlead, htrail]
  simp

/-- Text without marks is one token. -/
theorem scan_last {last : List Char} (h : Unmarked last) (fuel : Nat) :
    scan (fuel + 1) (.outside false) last = textToken last := by
  rw [scan.eq_def]
  dsimp only
  rw [if_neg Bool.false_ne_true, splitMark_eq h]

/-- The text before a hole is one token. -/
theorem scan_piece {piece : List Char} (h : Unmarked (piece ++ ['{'])) (rest : List Char)
    (fuel : Nat) : scan (fuel + 1) (.outside false) (piece ++ '{' :: '{' :: ' ' :: rest) =
      textToken piece ++ .valueStart :: scan fuel (.inside false 0) (' ' :: rest) := by
  rw [scan.eq_def]
  dsimp only
  rw [if_neg Bool.false_ne_true, splitMark_append h]
  rfl

namespace Form

/-- What is scanned are the texts and the tokens of the holes. -/
theorem scan_charsOf {last : List Char} (hlast : Unmarked last) :
    ∀ {holes : List (List Char × Word)}, (∀ h ∈ holes, Unmarked (h.1 ++ ['{'])) → ∀ {fuel : Nat},
      (charsOf last holes).length < fuel →
        scan fuel (.outside false) (charsOf last holes) = tokensOf last holes
  | [], _, fuel, hfuel => by
    obtain ⟨k, rfl⟩ := Nat.exists_eq_add_of_lt hfuel
    exact scan_last hlast _
  | (piece, w) :: rest, hholes, fuel, hfuel => by
    obtain ⟨hpiece, hrest⟩ := List.forall_mem_cons.mp hholes
    rw [charsOf, w.hole_append] at hfuel ⊢
    simp only [List.length_append, List.length_cons] at hfuel
    -- One step takes the text off, and six take the hole off.
    obtain ⟨k, rfl⟩ : ∃ k, fuel = k + 6 + 1 := ⟨fuel - 7, by omega⟩
    rw [scan_piece hpiece, scan_hole, scan_charsOf hlast hrest (by omega), tokensOf]
    rfl

/-- A form is split into its texts and the tokens of its holes. -/
theorem ofStencil (f : Form) :
    Token.ofStencil f.text.toList = tokensOf f.last f.holes := by
  rw [text, String.toList_ofList]
  exact scan_charsOf f.unmarkedLast f.unmarked (Nat.lt_succ_self _)

end Form

/-! ## Pieces -/

namespace Reader

/-- The tokens in a hole are read as the answer. -/
theorem expr_hole (w : Word) (ts : List Token) (blocks : List (String × List Stmt)) (fuel : Nat) :
    Reader.expr (fuel + 23) 0
      ⟨.word "Answers" :: .sign .dot :: .word w.text :: .valueEnd :: ts, blocks⟩ =
        .ok (w.answer, ⟨.valueEnd :: ts, blocks⟩) :=
  expr_of_notExpr (.valueEnd ts) (by decide)
    (notExpr_lookup blocks fuel 1 ⟨w.text, []⟩ (.valueEnd ts) (by decide))

section Pieces

variable {ts : List Token} {blocks : List (String × List Stmt)} {stmts : List Stmt} {c : Cursor}
  {fuel : Nat}

theorem pieces_nil : pieces (fuel + 1) 0 false [] ⟨[], blocks⟩ = .ok ([], ⟨[], blocks⟩) := by
  rw [pieces]
  rfl

theorem pieces_text (raw : String) (h : pieces fuel 0 false [] ⟨ts, blocks⟩ = .ok (stmts, c)) :
    pieces (fuel + 1) 0 false [] ⟨.text raw :: ts, blocks⟩ = .ok (.text raw :: stmts, c) := by
  rw [pieces]
  exact (bind_ok (next_cons rfl ts blocks)).trans (bind_ok h)

theorem pieces_hole (w : Word)
    (h : pieces (fuel + 23) 0 false [] ⟨ts, blocks⟩ = .ok (stmts, c)) :
    pieces (fuel + 24) 0 false [] ⟨w.holeTokens ++ ts, blocks⟩ =
      .ok (.print w.answer :: stmts, c) := by
  rw [pieces]
  exact (bind_ok (next_cons rfl _ blocks)).trans ((bind_ok (expr_hole w ts blocks fuel)).trans
    ((bind_ok (next_cons rfl ts blocks)).trans (bind_ok h)))

end Pieces

end Reader

namespace Form

theorem length_le_tokensOf (last : List Char) : ∀ holes : List (List Char × Word),
    holes.length ≤ (tokensOf last holes).length
  | [] => Nat.zero_le _
  | (piece, w) :: rest => by
    have hrest := length_le_tokensOf last rest
    simp only [tokensOf, Word.holeTokens, List.length_append, List.length_cons]
    omega

/-- What is read from the tokens of a form are its texts and the answers in its holes. -/
theorem pieces_tokensOf (last : List Char) (blocks : List (String × List Stmt)) :
    ∀ (holes : List (List Char × Word)) {fuel : Nat}, 2 * holes.length + 24 ≤ fuel →
      Reader.pieces fuel 0 false [] ⟨tokensOf last holes, blocks⟩ =
        .ok (stmtsOf last holes, ⟨[], blocks⟩)
  | [], fuel, hfuel => by
    obtain ⟨k, rfl⟩ : ∃ k, fuel = k + 2 := ⟨fuel - 2, by omega⟩
    rw [tokensOf, stmtsOf, textToken, textStmt]
    split
    · exact Reader.pieces_nil
    · exact Reader.pieces_text _ Reader.pieces_nil
  | (piece, w) :: rest, fuel, hfuel => by
    rw [List.length_cons] at hfuel
    obtain ⟨k, rfl⟩ : ∃ k, fuel = k + 25 := ⟨fuel - 25, by omega⟩
    -- The texts and holes take a step each, and enough is left for what is in the last hole.
    rw [tokensOf, stmtsOf, textToken, textStmt]
    split
    · exact Reader.pieces_hole w (pieces_tokensOf last blocks rest (by omega))
    · refine Reader.pieces_text _ (Reader.pieces_hole w ?_)
      exact pieces_tokensOf last blocks rest (by omega)

/-- A form is read as its texts and the answers in its holes. -/
theorem ofText (f : Form) : Tree.ofText f.text.toList = .ok ⟨stmtsOf f.last f.holes, []⟩ := by
  have hlength := length_le_tokensOf f.last f.holes
  have hpieces : Reader.pieces (Reader.fuelFor (tokensOf f.last f.holes)) 0 false []
      ⟨tokensOf f.last f.holes, []⟩ = .ok (stmtsOf f.last f.holes, ⟨[], []⟩) :=
    pieces_tokensOf f.last [] f.holes (by rw [Reader.fuelFor]; omega)
  unfold Tree.ofText
  rw [f.ofStencil]
  change Except.bind (Reader.pieces _ 0 false [] _) _ = _
  rw [hpieces]
  rfl

end Form

/-! ## Printing -/

namespace Run

variable {s : Setting} {call : Invoker}

/-- The machine that a run starts with, once something was printed. -/
def started (out : String) : Machine := { Machine.start with output := out }

/-- A hole prints the answer as it is. -/
theorem exec_answer {w : Word} {entries : List (Value × Value)} {value : String} (out : String)
    (hroot : (s.root.find? (·.1 == "Answers")).map (·.2) = some (.map entries))
    (hvalue : Value.findKey (.text w.text) entries = some (.text value)) :
    exec s call (.print w.answer) (started out) = .ok ((), started (out ++ value)) := by
  have hvar : eval s call (.var "Answers") (started out) = .ok (.map entries, started out) := by
    rw [eval]
    change Except.ok (((started out).lookup? s "Answers").getD .undefined, started out) = _
    rw [lookup?_of_frames rfl hroot]
    rfl
  have hattr : eval s call w.answer (started out) = .ok (.text value, started out) := by
    rw [Word.answer, eval]
    refine (bind_ok hvar).trans ?_
    have hfound : (started out).attr? w.text (.map entries) = some (.text value) := hvalue
    refine (bind_ok rfl).trans ?_
    rw [hfound]
    rfl
  rw [exec]
  exact (bind_ok hattr).trans rfl

end Run

namespace Form

theorem execAll_textStmt (s : Setting) (call : Invoker) (text : List Char) (rest : List Stmt)
    (out : String) : Run.execAll s call (textStmt text ++ rest) (Run.started out) =
      Run.execAll s call rest (Run.started (out ++ String.ofList text)) := by
  unfold textStmt
  split
  · rename_i hempty
    rw [List.isEmpty_iff.mp hempty, String.ofList_nil, String.append_empty, List.nil_append]
  · have htext : Run.exec s call (.text (String.ofList text)) (Run.started out) =
        .ok ((), Run.started (out ++ String.ofList text)) := by
      rw [Run.exec]
      rfl
    rw [List.singleton_append, Run.execAll]
    exact Run.bind_ok htext

/-- What is printed are the texts with the values in the holes. -/
theorem execAll_stmtsOf {s : Setting} {call : Invoker} {entries : List (Value × Value)}
    {values : String → String}
    (hroot : (s.root.find? (·.1 == "Answers")).map (·.2) = some (.map entries))
    (last : List Char) : ∀ {holes : List (List Char × Word)},
      (∀ h ∈ holes, Value.findKey (.text h.2.text) entries = some (.text (values h.2.text))) →
      ∀ out, Run.execAll s call (stmtsOf last holes) (Run.started out) =
        .ok ((), Run.started (out ++ String.ofList (filledOf values last holes)))
  | [], _, out => by
    rw [stmtsOf, filledOf, ← List.append_nil (textStmt last), execAll_textStmt, Run.execAll]
    rfl
  | (piece, w) :: rest, h, out => by
    obtain ⟨hw, hrest⟩ := List.forall_mem_cons.mp h
    rw [stmtsOf, filledOf, execAll_textStmt, Run.execAll]
    refine (Run.bind_ok (Run.exec_answer _ hroot hw)).trans ?_
    rw [execAll_stmtsOf hroot last hrest]
    simp only [String.ofList_append, String.ofList_toList, String.append_assoc]

/-- A form is rendered as its texts with the answers in the holes. -/
theorem render (f : Form) {root : List (String × Value)} {entries : List (Value × Value)}
    {values : String → String} (lenient : Bool)
    (hroot : (root.find? (·.1 == "Answers")).map (·.2) = some (.map entries))
    (hvalues : ∀ h ∈ f.holes,
      Value.findKey (.text h.2.text) entries = some (.text (values h.2.text))) :
    (Tree.ofText f.text.toList).bind (·.render lenient root) = .ok (f.filled values) := by
  let s : Setting := { lenient, root }
  have hprint : Run.execAll s (Run.invoke s (Machine.maxDepth + 8)) (stmtsOf f.last f.holes)
      (Run.started "") = .ok ((), Run.started (f.filled values)) := by
    rw [execAll_stmtsOf hroot f.last hvalues, String.empty_append]
    rfl
  rw [f.ofText]
  change Except.bind (Run.execAll s _ (stmtsOf f.last f.holes) (Run.started "")) _ = _
  rw [hprint]
  rfl

end Form

end Scaffold.Stencil
