/-!
# Pieces of a text

`pieces mark text` are the pieces between marks, one more than there are marks
(`length_pieces`).
-/

namespace Scaffold.Text

/-- The pieces of a text between marks. -/
def pieces (mark : Char) : List Char → List (List Char)
  | [] => [[]]
  | c :: rest =>
    if c = mark then [] :: pieces mark rest
    else
      match pieces mark rest with
      | [] => [[c]]
      | piece :: more => (c :: piece) :: more

theorem pieces_ne_nil (mark : Char) (text : List Char) : pieces mark text ≠ [] := by
  cases text with
  | nil => simp [pieces]
  | cons c rest =>
    simp only [pieces]
    split
    · simp
    · split <;> simp

theorem length_pieces (mark : Char) (text : List Char) :
    (pieces mark text).length = text.count mark + 1 := by
  induction text with
  | nil => rfl
  | cons c rest ih =>
    by_cases h : c = mark
    · simp [pieces, h, ih]
    · have hne := pieces_ne_nil mark rest
      obtain ⟨piece, more, hp⟩ := List.exists_cons_of_ne_nil hne
      have hc : List.count mark (c :: rest) = List.count mark rest := List.count_cons_of_ne h
      simp [pieces, h, hp, hc] at ih ⊢
      omega

end Scaffold.Text
