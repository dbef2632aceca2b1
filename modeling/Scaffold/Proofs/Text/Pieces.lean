import Mathlib.Data.List.Infix
import Scaffold.Text.Case
import Scaffold.Text.Split

/-!
# Pieces and white space

The pieces of a text between marks are what its characters are split into at the mark
(`pieces_eq_splitOn`), so a mark is in none of them, and the pieces before a mark and those after it
are pieces of their own. White space around a text that has none at its ends is all that is taken
away from them (`trim_append`).
-/

namespace Scaffold.Text

/-! ## Pieces between marks -/

/-- Pieces between marks are the parts of a list between separators. -/
theorem pieces_eq_splitOn (mark : Char) (text : List Char) :
    pieces mark text = text.splitOn mark := by
  induction text with
  | nil => exact (List.splitOn_nil mark).symm
  | cons c rest ih =>
    rw [pieces, List.splitOn_cons_eq_if_modifyHead]
    by_cases hc : c = mark
    · rw [if_pos hc, if_pos (beq_iff_eq.mpr hc), ih]
    · rw [if_neg hc, if_neg (mt beq_iff_eq.mp hc)]
      obtain ⟨piece, more, hrest⟩ := List.exists_cons_of_ne_nil (pieces_ne_nil mark rest)
      rw [← ih, hrest, List.modifyHead_cons]

/-- The pieces before a mark and those after it are pieces of their own. -/
theorem pieces_append_mark (mark : Char) (a b : List Char) :
    pieces mark (a ++ mark :: b) = pieces mark a ++ pieces mark b := by
  simp only [pieces_eq_splitOn, List.splitOn_append_cons_self]

theorem pieces_of_not_mem {mark : Char} {a : List Char} (h : mark ∉ a) : pieces mark a = [a] := by
  rw [pieces_eq_splitOn, List.splitOn_eq_singleton h]

theorem not_mem_of_mem_pieces {mark : Char} :
    ∀ {text piece : List Char}, piece ∈ pieces mark text → mark ∉ piece
  | [], piece, h => by
    obtain rfl := List.mem_singleton.mp h
    exact List.not_mem_nil
  | c :: text, piece, h => by
    by_cases hc : c = mark
    · rw [pieces, if_pos hc] at h
      rcases List.mem_cons.mp h with rfl | h
      · exact List.not_mem_nil
      · exact not_mem_of_mem_pieces h
    · obtain ⟨first, more, hp⟩ := List.exists_cons_of_ne_nil (pieces_ne_nil mark text)
      have hrest : ∀ q ∈ first :: more, mark ∉ q := fun q hq => not_mem_of_mem_pieces (hp ▸ hq)
      simp only [pieces, if_neg hc, hp, List.mem_cons] at h
      rcases h with rfl | h
      · simp only [List.mem_cons, not_or]
        exact ⟨Ne.symm hc, hrest first List.mem_cons_self⟩
      · exact hrest piece (List.mem_cons_of_mem _ h)

/-! ## White space at the ends -/

theorem dropWhile_append_of_head {α : Type} {p : α → Bool} {before text : List α}
    (hbefore : ∀ c ∈ before, p c = true) (hhead : ∀ c ∈ text.head?, p c = false) :
    (before ++ text).dropWhile p = text := by
  rw [List.dropWhile_append_of_pos hbefore]
  cases text with
  | nil => rfl
  | cons c text => exact List.dropWhile_cons_of_neg (by simp [hhead c rfl])

/-- White space around a text that has none at its ends is what is taken away. -/
theorem trim_append {before text after : List Char} (hbefore : ∀ c ∈ before, isBlank c = true)
    (hafter : ∀ c ∈ after, isBlank c = true) (hne : text ≠ [])
    (hhead : ∀ c ∈ text.head?, isBlank c = false)
    (hlast : ∀ c ∈ text.getLast?, isBlank c = false) : trim (before ++ text ++ after) = text := by
  have hfront : (before ++ text ++ after).dropWhile isBlank = text ++ after := by
    rw [List.append_assoc]
    refine dropWhile_append_of_head hbefore ?_
    rwa [List.head?_append_of_ne_nil _ hne]
  have hback : (text ++ after).reverse.dropWhile isBlank = text.reverse := by
    rw [List.reverse_append]
    refine dropWhile_append_of_head (fun c hc => hafter c (List.mem_reverse.mp hc)) ?_
    rwa [List.head?_reverse]
  rw [trim, hfront, hback, List.reverse_reverse]

end Scaffold.Text
