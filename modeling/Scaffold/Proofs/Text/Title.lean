import Scaffold.Proofs.Text.Mapping

/-!
# Capital letters at the start of words

A word starts at the start of a text, and after every character that is no part of a word
(`startAfter`). So what is done to a character depends on the one before it alone
(`titleFrom_eq_flatMap`), and a text can be cut at a character that is no part of a word
(`title_words`).

Upper case of a letter may end in a mark, which is no part of a word. What follows such a letter goes
on its word the first time and starts one the second time. That is the only way in which capital
letters are not settled after one time (`title_title_iff`).
-/

namespace Scaffold.Text

/-! ## Words -/

/-- Whether a character is part of a word. -/
def inWord (c : Char) : Bool := isAlphanumeric c || c == '_'

/-- Whether a word may start after a text, if `start` says so for an empty one. -/
def startAfter (start : Bool) (text : List Char) : Bool :=
  (text.getLast?.map fun c => !inWord c).getD start

@[simp] theorem startAfter_nil (start : Bool) : startAfter start [] = start := rfl

@[simp] theorem startAfter_concat (start : Bool) (text : List Char) (c : Char) :
    startAfter start (text ++ [c]) = !inWord c := by
  rw [startAfter, List.getLast?_concat]
  rfl

theorem startAfter_cons (start : Bool) (c : Char) (text : List Char) :
    startAfter start (c :: text) = startAfter (!inWord c) text := by
  rcases List.eq_nil_or_concat' text with rfl | ⟨text, d, rfl⟩
  · rfl
  · rw [← List.cons_append, startAfter_concat, startAfter_concat]

theorem startAfter_append (start : Bool) (a b : List Char) :
    startAfter start (a ++ b) = startAfter (startAfter start a) b := by
  induction a generalizing start with
  | nil => rfl
  | cons c a ih => rw [List.cons_append, startAfter_cons, ih, ← startAfter_cons]

theorem inWord_of_isAlphabetic {c : Char} (h : isAlphabetic c = true) : inWord c = true := by
  simp [inWord, isAlphanumeric, h]

/-! ## One character after the other -/

variable {start : Bool} {c d : Char} {text : List Char}

/-- What becomes of one character. -/
def titleChar (start : Bool) (c : Char) : List Char :=
  if start && isAlphabetic c then upperChar c else [c]

theorem titleFrom_cons (start : Bool) (c : Char) (rest : List Char) :
    titleFrom start (c :: rest) = titleChar start c ++ titleFrom (!inWord c) rest := rfl

theorem titleFrom_append (start : Bool) (a b : List Char) :
    titleFrom start (a ++ b) = titleFrom start a ++ titleFrom (startAfter start a) b := by
  induction a generalizing start with
  | nil => rfl
  | cons c a ih =>
    rw [List.cons_append, titleFrom_cons, titleFrom_cons, ih, startAfter_cons, List.append_assoc]

/-- Whether a word may start at a position of a text : in front, and after a character that is no
part of a word. -/
def startsAt (text : List Char) (i : Nat) : Bool :=
  i == 0 || text[i - 1]?.any fun c => !inWord c

theorem startsAt_length (before after : List Char) :
    startsAt (before ++ after) before.length = startAfter true before := by
  rcases List.eq_nil_or_concat' before with rfl | ⟨before, c, rfl⟩
  · rfl
  · simp [startsAt]

/-- Each character is replaced by itself, or by its upper case if it is a letter at which a word
may start. -/
theorem titleFrom_eq_flatMap (before after : List Char) :
    titleFrom (startAfter true before) after =
      (after.zipIdx before.length).flatMap fun p =>
        titleChar (startsAt (before ++ after) p.2) p.1 := by
  induction after generalizing before with
  | nil => rfl
  | cons c after ih =>
    have ih := ih (before ++ [c])
    rw [startAfter_concat, List.length_append, List.length_singleton, List.append_assoc,
      List.singleton_append] at ih
    rw [titleFrom_cons, ih, List.zipIdx_cons, List.flatMap_cons, startsAt_length]

theorem toList_title (text : String) : (title text).toList = titleFrom true text.toList := by
  rw [title, String.toList_ofList]

/-- In front and after a character that is no part of a word, and nowhere else, a letter is replaced
by its full upper case; every other character stays. So a text may be cut at a character that is no
part of a word, and what comes of each side does not depend on the other one. -/
theorem title_words :
    (∀ text : String, (title text).toList = text.toList.zipIdx.flatMap fun (c, i) =>
      if startsAt text.toList i && isAlphabetic c then upperChar c else [c]) ∧
    ∀ (a b : String) (c : Char), inWord c = false →
      title (a ++ String.singleton c ++ b) = title a ++ String.singleton c ++ title b := by
  refine ⟨fun text => ?_, fun a b c hc => ?_⟩
  · rw [toList_title]
    exact titleFrom_eq_flatMap [] text.toList
  · have hletter : isAlphabetic c = false := by
      by_contra hne
      rw [inWord_of_isAlphabetic (eq_true_of_ne_false hne)] at hc
      cases hc
    have hkept (start : Bool) : titleFrom start [c] = [c] := by
      rw [titleFrom_cons, titleChar, hletter, Bool.and_false, if_neg Bool.false_ne_true]
      rfl
    have hstart (start : Bool) : startAfter start [c] = true := by
      rw [startAfter_cons, hc]
      rfl
    rw [← String.toList_inj]
    simp only [toList_title, String.toList_append, String.toList_singleton]
    rw [titleFrom_append, titleFrom_append, hkept, startAfter_append, hstart]

/-- A letter that stays in a word, digits and underscores that go on a word, a letter with two
letters in upper case, and a word that a dash starts. -/
theorem title_words_dash :
    inWord '-' = false ∧ title "2nd straße_x" = "2nd Straße_x" ∧
      title ("2nd straße_x" ++ String.singleton '-' ++ "ﬁn") = "2nd Straße_x-FIn" := by
  have hdash : inWord '-' = false := by decide +kernel
  have hleft : title "2nd straße_x" = "2nd Straße_x" := by decide +kernel
  have hright : title "ﬁn" = "FIn" := by decide +kernel
  refine ⟨hdash, hleft, ?_⟩
  rw [title_words.2 _ _ _ hdash, hleft, hright]
  rfl

/-! ## Capital letters a second time -/

/-- Whether upper case of one letter takes the next one off its word : the upper case ends in a
character that is no part of a word, and the next letter is not its own upper case. -/
structure TakesOff (c d : Char) : Prop where
  letter : isAlphabetic c = true
  ends : startAfter true (upperChar c) = true
  next_letter : isAlphabetic d = true
  next_ne : upperChar d ≠ [d]

/-- Whether a letter at which a word starts takes the next one off its word. -/
def BreaksWord (start : Bool) (text : List Char) : Prop :=
  ∃ before c d after, text = before ++ c :: d :: after ∧ startAfter start before = true ∧
    TakesOff c d

theorem not_breaksWord_nil : ¬BreaksWord start [] := by
  rintro ⟨before, c, d, after, h, -⟩
  simp at h

/-- Either the first letter takes the second one off its word, or a later one does so. -/
theorem breaksWord_cons : BreaksWord start (c :: text) ↔
    (start = true ∧ ∃ d after, text = d :: after ∧ TakesOff c d) ∨
      BreaksWord (!inWord c) text := by
  constructor
  · rintro ⟨before, c', d, after, h, hstart, htakes⟩
    cases before with
    | nil =>
      obtain ⟨rfl, rfl⟩ := List.cons.inj h
      exact Or.inl ⟨hstart, d, after, rfl, htakes⟩
    | cons first before =>
      obtain ⟨rfl, rfl⟩ := List.cons.inj h
      exact Or.inr ⟨before, c', d, after, rfl, startAfter_cons start c before ▸ hstart, htakes⟩
  · rintro (⟨rfl, d, after, rfl, htakes⟩ | ⟨before, c', d, after, rfl, hstart, htakes⟩)
    · exact ⟨[], c, d, after, rfl, rfl, htakes⟩
    · exact ⟨c :: before, c', d, after, rfl, startAfter_cons start c before ▸ hstart, htakes⟩

/-- Characters that are their own upper case stay. -/
theorem titleFrom_of_upper (start : Bool) (h : ∀ c ∈ text, upperChar c = [c]) :
    titleFrom start text = text := by
  induction text generalizing start with
  | nil => rfl
  | cons c text ih =>
    have hc : titleChar start c = [c] := by
      rw [titleChar, h c List.mem_cons_self, ite_self]
    rw [titleFrom_cons, hc, ih _ fun d hd => h d (List.mem_cons_of_mem c hd)]
    rfl

/-- What becomes of a text after a letter in upper case, a second time. -/
theorem titleFrom_upperChar_append (c : Char) (text : List Char) :
    titleFrom true (upperChar c ++ text) =
      upperChar c ++ titleFrom (startAfter true (upperChar c)) text := by
  rw [titleFrom_append, titleFrom_of_upper true fun d hd => upperChar_of_mem hd]

/-- A letter that has another upper case does not stay in front of anything. -/
theorem upperChar_append_ne {a b : List Char} (h : upperChar d ≠ [d]) :
    upperChar d ++ a ≠ d :: b := by
  intro heq
  obtain ⟨first, more, hupper⟩ := List.exists_cons_of_ne_nil (upperChar_ne_nil d)
  rw [hupper, List.cons_append, List.cons.injEq] at heq
  have hmem : d ∈ upperChar d := by
    rw [hupper, heq.1]
    exact List.mem_cons_self
  exact h (upperChar_of_mem hmem)

theorem titleFrom_false_cons (d : Char) (text : List Char) :
    titleFrom false (d :: text) = d :: titleFrom (!inWord d) text := rfl

/-- Where a word starts the second time and did not start the first time, the text stays just if its
first letter is its own upper case. -/
theorem titleFrom_true_titleFrom_false (d : Char) (text : List Char) :
    titleFrom true (titleFrom false (d :: text)) = titleFrom false (d :: text) ↔
      ¬(isAlphabetic d = true ∧ upperChar d ≠ [d]) ∧
        titleFrom false (titleFrom false (d :: text)) = titleFrom false (d :: text) := by
  rw [titleFrom_false_cons, titleFrom_false_cons, titleFrom_cons, List.cons.injEq,
    and_iff_right rfl]
  by_cases hd : isAlphabetic d = true ∧ upperChar d ≠ [d]
  · have hchanged : titleChar true d = upperChar d := by
      rw [titleChar, hd.1, Bool.and_self, if_pos rfl]
    rw [hchanged]
    exact iff_of_false (upperChar_append_ne hd.2) fun h => h.1 hd
  · have hkept : titleChar true d = [d] := by
      rw [titleChar]
      split_ifs with hletter
      · exact not_not.mp fun hne => hd ⟨hletter, hne⟩
      · rfl
    rw [hkept, List.singleton_append, List.cons.injEq, and_iff_right rfl, and_iff_right hd]

/-- What follows a letter in upper case stays a second time if the letter does not take its start off
the word, and if it stays where no word starts. -/
theorem titleFrom_after_letter {c : Char} (hc : isAlphabetic c = true) (text : List Char) :
    titleFrom (startAfter true (upperChar c)) (titleFrom false text) = titleFrom false text ↔
      (¬∃ d after, text = d :: after ∧ TakesOff c d) ∧
        titleFrom false (titleFrom false text) = titleFrom false text := by
  cases hends : startAfter true (upperChar c) with
  | false =>
    refine (and_iff_right ?_).symm
    rintro ⟨d, after, -, htakes⟩
    exact absurd htakes.ends (by simp [hends])
  | true =>
    cases text with
    | nil => exact iff_of_true rfl ⟨by simp, rfl⟩
    | cons d rest =>
      rw [titleFrom_true_titleFrom_false]
      refine and_congr_left' (not_congr ⟨fun hd => ?_, ?_⟩)
      · exact ⟨d, rest, rfl, hc, hends, hd.1, hd.2⟩
      · rintro ⟨d', after, heq, htakes⟩
        obtain ⟨rfl, rfl⟩ := List.cons.inj heq
        exact ⟨htakes.next_letter, htakes.next_ne⟩

/-- A second time changes a text just if some letter takes the next one off its word. -/
theorem titleFrom_titleFrom_iff (start : Bool) (text : List Char) :
    titleFrom start (titleFrom start text) = titleFrom start text ↔ ¬BreaksWord start text := by
  induction text generalizing start with
  | nil => exact iff_of_true rfl not_breaksWord_nil
  | cons c text ih =>
    rw [titleFrom_cons, titleChar, breaksWord_cons, not_or, ← ih]
    split_ifs with hup
    · obtain ⟨rfl, hc⟩ := Bool.and_eq_true_iff.mp hup
      rw [titleFrom_upperChar_append, List.append_cancel_left_eq, inWord_of_isAlphabetic hc,
        Bool.not_true, titleFrom_after_letter hc, and_iff_right rfl]
    · -- The character stays both times.
      rw [List.singleton_append, titleFrom_cons, titleChar, if_neg hup, List.singleton_append,
        List.cons.injEq, and_iff_right rfl]
      refine (and_iff_right ?_).symm
      rintro ⟨rfl, d, after, -, htakes⟩
      exact hup (by rw [htakes.letter, Bool.and_self])

theorem title_title_iff (text : String) :
    title (title text) = title text ↔ ¬BreaksWord true text.toList := by
  rw [← String.toList_inj, toList_title, toList_title]
  exact titleFrom_titleFrom_iff true text.toList

end Scaffold.Text
