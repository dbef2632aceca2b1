import Scaffold.Proofs.Text.Title
import Scaffold.Question.Transform

/-!
# Transforms a second time

What a transform makes of an answer is of the same kind, and only texts are changed. Most transforms
change nothing a second time : small letters stay (`Text.lower_lower`), and so does a slug, since it
is made of small ASCII letters, digits and single dashes that are spelled as they are, however other
characters are spelled (`Text.slugBy_slugBy`). A second time there may be more capital letters at the
start of words, for the one reason that the upper case of a letter may end in a mark, after which
another word starts (`Transform.applyText_applyText_iff`).
-/

namespace Scaffold

namespace Text

/-! ## Small letters -/

/-- A character that lower case leaves alone is no capital sigma, the only one whose lower case
depends on what is around it. -/
theorem ne_sigma_of_lowerChar {c : Char} (h : lowerChar c = [c]) : c ≠ 'Σ' := by
  rintro rfl
  exact absurd h (by decide +kernel)

theorem lowerAfter_of_lower {text : List Char} (before : List Char)
    (h : ∀ c ∈ text, lowerChar c = [c]) : lowerAfter before text = text := by
  induction text generalizing before with
  | nil => rfl
  | cons c text ih =>
    have hc := h c List.mem_cons_self
    have ih := ih (c :: before) fun d hd => h d (List.mem_cons_of_mem c hd)
    simp only [lowerAfter, if_neg (ne_sigma_of_lowerChar hc), hc, ih, List.singleton_append]

theorem lowerChar_of_mem_lowerAfter {before text : List Char} {d : Char}
    (h : d ∈ lowerAfter before text) : lowerChar d = [d] := by
  induction text generalizing before with
  | nil => cases h
  | cons c text ih =>
    rw [lowerAfter, List.mem_append] at h
    rcases h with h | h
    · split_ifs at h
      · obtain rfl := List.mem_singleton.mp h
        decide +kernel
      · obtain rfl := List.mem_singleton.mp h
        decide +kernel
      · exact lowerChar_of_mem h
    · exact ih h

theorem lower_lower (text : String) : lower (lower text) = lower text := by
  have htext : (lower text).toList = lowerAfter [] text.toList := String.toList_ofList
  have hlower : ∀ c ∈ (lower text).toList, lowerChar c = [c] := fun c hc =>
    lowerChar_of_mem_lowerAfter (htext ▸ hc)
  rw [← String.toList_inj, lower, String.toList_ofList, lowerAfter_of_lower [] hlower]

/-! ## Slugs -/

/-- The slug of characters, for any spelling of them. -/
def slugBy (spelling : Char → List Char) (text : List Char) : List Char :=
  slugFrom false false (text.flatMap spelling)

/-- A letter or digit of a slug. -/
structure IsSlugLetter (c : Char) : Prop where
  ascii : c.val < 128
  isAlphanum : c.isAlphanum = true
  toLower : c.toLower = c

theorem val_lt_of_isAlphanum {c : Char} (h : c.isAlphanum = true) : c.toNat < 128 := by
  have heq : c.isAlphanum =
      (decide ('A' ≤ c ∧ c ≤ 'Z') || (decide ('a' ≤ c) && decide (c ≤ 'z')) ||
        (decide ('0' ≤ c) && decide (c ≤ '9'))) := rfl
  simp only [heq, Bool.or_eq_true, Bool.and_eq_true, decide_eq_true_eq, Char.le_def,
    UInt32.le_iff_toNat_le] at h
  have hz : 'z'.val.toNat = 122 := rfl
  have hZ : 'Z'.val.toNat = 90 := rfl
  have h9 : '9'.val.toNat = 57 := rfl
  have hc : c.toNat = c.val.toNat := rfl
  omega

/-- A letter or digit is one of a slug after lower case. -/
theorem isSlugLetter_toLower {c : Char} (h : c.isAlphanum = true) : IsSlugLetter c.toLower := by
  have hall : ∀ n < 128, (Char.ofNat n).isAlphanum = true →
      (Char.ofNat n).toLower.val < 128 ∧ (Char.ofNat n).toLower.isAlphanum = true ∧
        (Char.ofNat n).toLower.toLower = (Char.ofNat n).toLower := by decide +kernel
  have hc := hall c.toNat (val_lt_of_isAlphanum h)
  rw [Char.ofNat_toNat] at hc
  obtain ⟨hascii, hkept, hlower⟩ := hc h
  exact ⟨hascii, hkept, hlower⟩

theorem slugFrom_of_isAlphanum {c : Char} (h : c.isAlphanum = true) (written pending : Bool)
    (text : List Char) : slugFrom written pending (c :: text) =
      (if written && pending then ['-'] else []) ++ c.toLower :: slugFrom true false text := by
  rw [slugFrom, if_pos h]

theorem slugFrom_of_not_isAlphanum {c : Char} (h : ¬c.isAlphanum = true) (written pending : Bool)
    (text : List Char) : slugFrom written pending (c :: text) = slugFrom written true text := by
  rw [slugFrom, if_neg h]

theorem mem_slugFrom {written pending : Bool} {text : List Char} {d : Char}
    (h : d ∈ slugFrom written pending text) : d = '-' ∨ IsSlugLetter d := by
  induction text generalizing written pending with
  | nil => cases h
  | cons c text ih =>
    by_cases hc : c.isAlphanum = true
    · rw [slugFrom_of_isAlphanum hc, List.mem_append, List.mem_cons] at h
      rcases h with h | rfl | h
      · split_ifs at h
        · exact Or.inl (List.mem_singleton.mp h)
        · cases h
      · exact Or.inr (isSlugLetter_toLower hc)
      · exact ih h
    · rw [slugFrom_of_not_isAlphanum hc] at h
      exact ih h

/-- A slug is read as it is written. -/
theorem slugFrom_slugFrom (written pending : Bool) (text : List Char) :
    slugFrom written false (slugFrom written pending text) = slugFrom written pending text := by
  induction text generalizing written pending with
  | nil => rfl
  | cons c text ih =>
    by_cases hc : c.isAlphanum = true
    · have hletter := isSlugLetter_toLower hc
      have hdash : ¬Char.isAlphanum '-' = true := by decide
      rw [slugFrom_of_isAlphanum hc]
      split_ifs with hpending
      · -- The dash is left out until the letter after it is there.
        obtain ⟨rfl, -⟩ := Bool.and_eq_true_iff.mp hpending
        rw [List.singleton_append, slugFrom_of_not_isAlphanum hdash,
          slugFrom_of_isAlphanum hletter.isAlphanum, hletter.toLower, ih true false]
        rfl
      · rw [List.nil_append, slugFrom_of_isAlphanum hletter.isAlphanum, hletter.toLower,
          ih true false, Bool.and_false, if_neg Bool.false_ne_true, List.nil_append]
    · rw [slugFrom_of_not_isAlphanum hc, ih written true]

/-- A slug of a slug is the slug, if ASCII characters are spelled as they are. -/
theorem slugBy_slugBy {spelling : Char → List Char}
    (hascii : ∀ c : Char, c.val < 128 → spelling c = [c]) (text : List Char) :
    slugBy spelling (slugBy spelling text) = slugBy spelling text := by
  have hspelled : (slugBy spelling text).flatMap spelling = slugBy spelling text := by
    have hkept : ∀ c ∈ slugBy spelling text, spelling c = [c] := fun c hc => by
      rcases mem_slugFrom hc with rfl | hletter
      · exact hascii '-' (by decide)
      · exact hascii c hletter.ascii
    rw [List.flatMap_congr hkept]
    exact List.flatMap_singleton' _
  rw [slugBy, hspelled]
  exact slugFrom_slugFrom false false _

theorem slugSpelling_of_ascii {c : Char} (h : c.val < 128) : slugSpelling c = [c] := by
  have hcode : c.toNat < 128 := h
  rw [slugSpelling, latinSpelling?, if_pos hcode]
  exact String.toList_singleton c

theorem slug_slug (text : String) : slug (slug text) = slug text := by
  have htext (text : String) : (slug text).toList = slugBy slugSpelling text.toList :=
    String.toList_ofList
  rw [← String.toList_inj, htext, htext]
  exact slugBy_slugBy (fun c => slugSpelling_of_ascii) text.toList

end Text

namespace Transform

/-! ## Answers -/

/-- A transform changes a text a second time just if it is the one of capital letters and a letter
has taken the next one off its word. -/
theorem applyText_applyText_iff (t : Transform) (text : String) :
    t.applyText (t.applyText text) = t.applyText text ↔
      ¬(t = .title ∧ Text.BreaksWord true text.toList) := by
  cases t with
  | none => exact iff_of_true rfl (by simp)
  | title => simpa [applyText] using Text.title_title_iff text
  | lower => exact iff_of_true (Text.lower_lower text) (by simp)
  | slug => exact iff_of_true (Text.slug_slug text) (by simp)

/-- A transform makes a text of a text and leaves other answers alone. It changes nothing a second
time just if it is not the one of capital letters on a text with a letter, at which a word starts,
whose upper case ends in a character that is no part of a word, and right after it a letter that is
not its own upper case. A slug is its own slug in whatever way characters outside of ASCII are
spelled. -/
theorem apply_apply (t : Transform) (a : Answer) :
    ((∃ text, a = .text text ∧ t.apply a = .text (t.applyText text)) ∨
      a.asText? = Option.none ∧ t.apply a = a) ∧
    (t.apply (t.apply a) = t.apply a ↔
      ¬(t = .title ∧ ∃ text, a = .text text ∧ Text.BreaksWord true text.toList)) ∧
    ∀ spelling : Char → List Char, (∀ c : Char, c.val < 128 → spelling c = [c]) →
      ∀ text, Text.slugBy spelling (Text.slugBy spelling text) = Text.slugBy spelling text := by
  refine ⟨?_, ?_, fun spelling hascii => Text.slugBy_slugBy hascii⟩
  · cases a with
    | text text => exact Or.inl ⟨text, rfl, rfl⟩
    | flag yes | list items => exact Or.inr ⟨rfl, rfl⟩
  · cases a with
    | text text => simpa [apply] using applyText_applyText_iff t text
    | flag yes | list items => simp [apply]

/-- A spelling that gives a mark and a capital letter for every character outside of ASCII. -/
theorem apply_apply_spelled :
    let spelling := fun c : Char => if c.val < 128 then [c] else ['?', 'Z']
    (∀ c : Char, c.val < 128 → spelling c = [c]) ∧
      Text.slugBy spelling "\u00dcn\u00ef 7!".toList = "zn-z-7".toList ∧
      Text.slugBy spelling "zn-z-7".toList = "zn-z-7".toList := by
  intro spelling
  have hascii : ∀ c : Char, c.val < 128 → spelling c = [c] := fun c hc => if_pos hc
  have hslug : Text.slugBy spelling "\u00dcn\u00ef 7!".toList = "zn-z-7".toList := by
    decide +kernel
  have hagain := (apply_apply .slug (.text "")).2.2 spelling hascii "\u00dcn\u00ef 7!".toList
  rw [hslug] at hagain
  exact ⟨hascii, hslug, hagain⟩

/-- The upper case of a small j with a caron ends in the mark, and the next letter is a capital
letter after a second time, but not after the first one. -/
theorem apply_title_again :
    title.apply (.text "\u01f0a") = .text "J\u030ca" ∧
      title.apply (.text "J\u030ca") = .text "J\u030cA" ∧
      title.apply (title.apply (.text "\u01f0a")) ≠ title.apply (.text "\u01f0a") := by
  decide +kernel

end Transform

end Scaffold
