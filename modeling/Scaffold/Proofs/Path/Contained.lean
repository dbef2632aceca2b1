import Mathlib.Data.List.Infix
import Scaffold.Proofs.Path.Parts

/-!
# Paths that stay below a root

A text is cut into pieces at its slashes (`piecesOf`). An empty piece and a dot name nothing; the
others are the names that a path goes down (`plainPieces`), unless one of them goes up or the text
starts at the top (`Leaves`).

A root is extended by just the names of a text that does not leave it (`containedJoin_eq_ite`). So
what comes of it stays at the root or below it, says nothing but the names, and two texts in a row
are joined one after the other (`containedJoin_pieces`).
-/

namespace Scaffold

namespace Path

/-! ## Pieces -/

/-- The pieces of a text between its slashes. -/
def piecesOf (relative : String) : List String := (relative.toList.splitOn '/').map String.ofList

/-- The pieces that are not empty and no dot, in order. -/
def plainPieces (relative : String) : List String :=
  (piecesOf relative).filter fun piece => piece ≠ "" ∧ piece ≠ "."

/-- Whether a text starts at the top or has a piece that goes up. -/
def Leaves (relative : String) : Prop := relative.startsWith "/" = true ∨ ".." ∈ piecesOf relative

instance (relative : String) : Decidable (Leaves relative) := inferInstanceAs (Decidable (_ ∨ _))

theorem piecesOf_append_slash (a b : String) :
    piecesOf (a ++ "/" ++ b) = piecesOf a ++ piecesOf b := by
  have hlist : (a ++ "/" ++ b).toList = a.toList ++ '/' :: b.toList := by simp
  rw [piecesOf, hlist, List.splitOn_append_cons_self, List.map_append]
  rfl

theorem plainPieces_append_slash (a b : String) :
    plainPieces (a ++ "/" ++ b) = plainPieces a ++ plainPieces b := by
  rw [plainPieces, piecesOf_append_slash, List.filter_append]
  rfl

theorem startsWith_slash_iff {s : String} :
    s.startsWith "/" = true ↔ ∃ rest, s.toList = '/' :: rest := by
  rw [String.startsWith_string_iff]
  exact ⟨fun ⟨rest, h⟩ => ⟨rest, h.symm⟩, fun ⟨rest, h⟩ => ⟨rest, h.symm⟩⟩

theorem startsWith_append_slash {a : String} (ha : a ≠ "") (b : String) :
    (a ++ "/" ++ b).startsWith "/" = true ↔ a.startsWith "/" = true := by
  obtain ⟨c, rest, hc⟩ := List.exists_cons_of_ne_nil (mt String.toList_eq_nil_iff.mp ha)
  simp [hc]

/-- Two texts with a slash between them leave the root just if one of them does. -/
theorem leaves_append_slash {a b : String} (ha : a ≠ "") (hb : ¬b.startsWith "/" = true) :
    Leaves (a ++ "/" ++ b) ↔ Leaves a ∨ Leaves b := by
  rw [Leaves, Leaves, Leaves, startsWith_append_slash ha, piecesOf_append_slash, List.mem_append,
    or_assoc, or_iff_right hb]

/-! ## Pieces as parts -/

/-- What a piece stands for, as a text. -/
theorem partOf?_toList (piece : String) :
    partOf? piece.toList =
      if piece = "" ∨ piece = "." then none
      else if piece = ".." then some .up
      else some (.name piece) := by
  unfold partOf?
  split
  · rename_i h
    rw [if_pos (Or.inl (String.toList_eq_nil_iff.mp h))]
  · rename_i h
    rw [if_pos (Or.inr (String.toList_inj.mp h))]
  · rename_i h
    obtain rfl : piece = ".." := String.toList_inj.mp h
    rfl
  · rename_i hempty hdot hup
    rw [if_neg, if_neg, String.ofList_toList]
    · exact fun h => hup (h ▸ rfl)
    · rintro (rfl | rfl)
      · exact hempty rfl
      · exact hdot rfl

theorem bodyOf_toList (relative : String) :
    bodyOf relative.toList = (piecesOf relative).filterMap fun piece => partOf? piece.toList := by
  rw [bodyOf, piecesOf, Text.pieces_eq_splitOn, List.filterMap_map]
  simp

theorem startOf_toList (relative : String) :
    startOf relative.toList = [.root] ∧ relative.startsWith "/" = true ∨
      startOf relative.toList ∈ [[], [.here]] ∧ ¬relative.startsWith "/" = true := by
  rw [startsWith_slash_iff]
  unfold startOf
  split
  · rename_i rest h
    exact Or.inl ⟨rfl, rest, h⟩
  · rename_i h
    refine Or.inr ⟨?_, fun ⟨rest, hrest⟩ => h rest hrest⟩
    split <;> simp

/-- The parts of a text leave a root just if its pieces do. -/
theorem escapes_iff (relative : String) : escapes relative = true ↔ Leaves relative := by
  have hbody : (bodyOf relative.toList).any (fun c => c = .up || c = .root) = true ↔
      ".." ∈ piecesOf relative := by
    rw [bodyOf_toList, List.any_filterMap, List.any_eq_true]
    constructor
    · rintro ⟨piece, hmem, hpiece⟩
      rw [partOf?_toList] at hpiece
      split_ifs at hpiece with hsilent hup
      · exact hup ▸ hmem
      · simp at hpiece
    · exact fun hmem => ⟨"..", hmem, rfl⟩
  rw [escapes, partsOf_eq, List.any_append, Bool.or_eq_true, hbody, Leaves]
  refine or_congr_left ?_
  rcases startOf_toList relative with ⟨hstart, hroot⟩ | ⟨hstart, hroot⟩
  · rw [hstart]
    exact iff_of_true rfl hroot
  · refine iff_of_false ?_ hroot
    simp only [List.mem_cons, List.not_mem_nil, or_false] at hstart
    rcases hstart with hstart | hstart <;> simp [hstart]

/-- The name that a part is. -/
def Part.name? : Part → Option String
  | .name n => some n
  | _ => none

theorem namesOf_eq (relative : String) :
    namesOf relative = (partsOf relative.toList).filterMap Part.name? := rfl

/-- The names of a text that does not leave the root are its plain pieces. -/
theorem namesOf_eq_plainPieces {relative : String} (h : ¬Leaves relative) :
    namesOf relative = plainPieces relative := by
  have hup : ".." ∉ piecesOf relative := fun hmem => h (Or.inr hmem)
  have hstart : (startOf relative.toList).filterMap Part.name? = [] := by
    rcases startOf_toList relative with ⟨hstart, -⟩ | ⟨hstart, -⟩
    · rw [hstart]
      rfl
    · simp only [List.mem_cons, List.not_mem_nil, or_false] at hstart
      rcases hstart with hstart | hstart <;> rw [hstart] <;> rfl
  rw [namesOf_eq, partsOf_eq, List.filterMap_append, hstart, List.nil_append, bodyOf_toList,
    List.filterMap_filterMap, plainPieces, ← List.filterMap_eq_filter]
  refine List.filterMap_congr fun piece hmem => ?_
  have hne : piece ≠ ".." := fun heq => hup (heq ▸ hmem)
  rw [partOf?_toList]
  by_cases hsilent : piece = "" ∨ piece = "."
  · rcases hsilent with rfl | rfl <;> rfl
  · obtain ⟨hempty, hdot⟩ := not_or.mp hsilent
    simp [hempty, hdot, hne, Part.name?, Option.guard]

/-! ## Below a root -/

/-- A root is extended by the plain pieces of a text, unless the text leaves it. -/
theorem containedJoin_eq_ite (root : Path) (relative : String) :
    containedJoin root relative =
      if Leaves relative then none else some (root.joinAll (plainPieces relative)) := by
  rw [containedJoin_eq]
  by_cases h : Leaves relative
  · rw [if_pos h, if_pos ((escapes_iff relative).mpr h)]
  · rw [if_neg h, if_neg (mt (escapes_iff relative).mp h), namesOf_eq_plainPieces h]

theorem containedJoin_eq_some_iff {root p : Path} {relative : String} :
    containedJoin root relative = some p ↔
      ¬Leaves relative ∧ p = root.joinAll (plainPieces relative) := by
  rw [containedJoin_eq_ite]
  split_ifs with h <;> simp [h, eq_comm]

theorem isSome_containedJoin_iff {root : Path} {relative : String} :
    (containedJoin root relative).isSome ↔ ¬Leaves relative := by
  rw [containedJoin_eq_ite]
  split_ifs with h <;> simp [h]

/-- Plain pieces are names. -/
theorem isName_of_mem_plainPieces {relative : String} (h : ¬Leaves relative) :
    ∀ n ∈ plainPieces relative, IsName n := by
  rw [← namesOf_eq_plainPieces h]
  exact fun n => isName_of_mem_namesOf

/-- A root with names after it says the root and the names. -/
theorem parts_joinAll_plainPieces (root : Path) {relative : String} (h : ¬Leaves relative) :
    (root.joinAll (plainPieces relative)).parts =
      root.parts ++ (plainPieces relative).map Part.name :=
  parts_joinAll root _ (isName_of_mem_plainPieces h)

theorem map_name_inj {a b : List String} : a.map Part.name = b.map Part.name ↔ a = b :=
  List.map_inj_right fun _ _ h => Part.name.inj h

/-- Two texts that do not leave a root lead to one place below it just if they have the same plain
pieces. -/
theorem joinAll_plainPieces_inj (root : Path) {a b : String} (ha : ¬Leaves a) (hb : ¬Leaves b) :
    (root.joinAll (plainPieces a)).parts = (root.joinAll (plainPieces b)).parts ↔
      plainPieces a = plainPieces b := by
  rw [parts_joinAll_plainPieces root ha, parts_joinAll_plainPieces root hb,
    List.append_cancel_left_eq, map_name_inj]

/-- A root is extended by a text just if the text does not start at the top and no piece of it goes
up. What comes of it is the root and then the plain pieces of the text, so it is the root or below
it, and two texts come to the same path just if their plain pieces are the same. A text that goes on
after a slash extends what its beginning comes to, if that and the rest do not leave the root. -/
theorem containedJoin_pieces (root : Path) :
    (∀ s, (containedJoin root s).isSome ↔ ¬s.startsWith "/" = true ∧ ".." ∉ piecesOf s) ∧
    (∀ s p, containedJoin root s = some p →
      p = root.joinAll (plainPieces s) ∧
        p.parts = root.parts ++ (plainPieces s).map Part.name ∧
        (p = root ∨ ∃ n below, p.parts = root.parts ++ .name n :: below)) ∧
    (∀ s t p q, containedJoin root s = some p → containedJoin root t = some q →
      (p = q ↔ plainPieces s = plainPieces t) ∧
        (p.parts = q.parts ↔ plainPieces s = plainPieces t)) ∧
    ∀ a b, a ≠ "" → ¬b.startsWith "/" = true →
      ((containedJoin root (a ++ "/" ++ b)).isSome ↔
        (containedJoin root a).isSome ∧ (containedJoin root b).isSome) ∧
      containedJoin root (a ++ "/" ++ b) = (containedJoin root a).bind (containedJoin · b) := by
  refine ⟨fun s => ?_, fun s p hp => ?_, fun s t p q hp hq => ?_, fun a b ha hb => ⟨?_, ?_⟩⟩
  · rw [isSome_containedJoin_iff, Leaves, not_or]
  · obtain ⟨hs, rfl⟩ := containedJoin_eq_some_iff.mp hp
    have hparts := parts_joinAll_plainPieces root hs
    refine ⟨rfl, hparts, ?_⟩
    cases hpieces : plainPieces s with
    | nil => exact Or.inl rfl
    | cons n below => exact Or.inr ⟨n, _, by rw [← hpieces, hparts, hpieces, List.map_cons]⟩
  · obtain ⟨hs, rfl⟩ := containedJoin_eq_some_iff.mp hp
    obtain ⟨ht, rfl⟩ := containedJoin_eq_some_iff.mp hq
    have hparts := joinAll_plainPieces_inj root hs ht
    exact ⟨⟨fun h => hparts.mp (congrArg parts h), fun h => congrArg root.joinAll h⟩, hparts⟩
  · simp only [isSome_containedJoin_iff, leaves_append_slash ha hb, not_or]
  · simp only [containedJoin_eq_ite, leaves_append_slash ha hb, plainPieces_append_slash,
      joinAll_append]
    by_cases hla : Leaves a
    · rw [if_pos (Or.inl hla), if_pos hla, Option.bind_none]
    · rw [if_neg hla, Option.bind_some]
      exact if_congr (or_iff_right hla) rfl rfl

/-- Two spellings of one path, and a text that leaves the root after its first piece. -/
theorem containedJoin_compose :
    plainPieces "./docker//compose.yml" = plainPieces "docker/./compose.yml/" ∧
    (containedJoin ⟨"/work/app"⟩ "./docker//compose.yml").map parts =
      some (parts ⟨"/work/app"⟩ ++ [.name "docker", .name "compose.yml"]) ∧
    containedJoin ⟨"/work/app"⟩ ("./docker" ++ "/" ++ "../../secrets") = none := by
  obtain ⟨-, hparts, hsame, hcompose⟩ := containedJoin_pieces ⟨"/work/app"⟩
  have hs : containedJoin ⟨"/work/app"⟩ "./docker//compose.yml" =
      some ⟨"/work/app/docker/compose.yml"⟩ := by decide +kernel
  have ht : containedJoin ⟨"/work/app"⟩ "docker/./compose.yml/" =
      some ⟨"/work/app/docker/compose.yml"⟩ := by decide +kernel
  have hpieces : plainPieces "./docker//compose.yml" = ["docker", "compose.yml"] := by
    decide +kernel
  refine ⟨(hsame _ _ _ _ hs ht).1.mp rfl, ?_, ?_⟩
  · rw [hs, Option.map_some, (hparts _ _ hs).2.1, hpieces]
    rfl
  · rw [(hcompose "./docker" "../../secrets" (by decide) (by decide +kernel)).2]
    decide +kernel

end Path

end Scaffold
