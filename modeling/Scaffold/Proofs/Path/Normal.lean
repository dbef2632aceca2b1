import Scaffold.Proofs.Path.Destination

/-!
# Normal paths

An absolute path leads to a location, and its normal path is the one of that location
(`normalize_eq`). What is joined to a path goes on from where the path leads to
(`destination_join_of_isAbsolute`). So a path may be made normal before something is joined to it, or
only afterwards, or both times, and it is the same path in the end (`normalize_laws`).
-/

namespace Scaffold.Path

/-! ## Where a path leads to -/

/-- A normal path is the path of the location that the path leads to. -/
theorem normalize_eq (p : Path) : p.normalize = ofLocation (destination [] p.text) := by
  rw [normalize, foldl_stepNormal_parts, ofLocation]

/-- A slash at the end of a text leads nowhere. -/
theorem foldl_goPiece_append_slash (l : List String) (text : String) :
    (piecesOf (text ++ "/")).foldl goPiece l = (piecesOf text).foldl goPiece l := by
  have hpieces : piecesOf (text ++ "/") = piecesOf text ++ [""] := by
    rw [← String.append_empty (s := text ++ "/"), piecesOf_append_slash]
    rfl
  rw [hpieces, List.foldl_concat]
  rfl

/-- The pieces of what is joined to a path come after those of the path. -/
theorem foldl_goPiece_join {p : Path} (hp : p.text ≠ "") {next : String}
    (hnext : ¬next.startsWith "/" = true) (l : List String) :
    (piecesOf (p.join next).text).foldl goPiece l =
      (piecesOf next).foldl goPiece ((piecesOf p.text).foldl goPiece l) := by
  rw [join, if_neg hnext]
  split_ifs with hend
  · have hslash : p.text.endsWith "/" = true :=
      (Bool.or_eq_true_iff.mp hend).resolve_left (by simpa using hp)
    obtain ⟨before, hbefore⟩ := exists_eq_append_slash hslash
    rw [hbefore, piecesOf_append_slash, List.foldl_append, foldl_goPiece_append_slash]
  · rw [piecesOf_append_slash, List.foldl_append]

/-- What is joined to a path goes on from where the path leads to. -/
theorem destination_join_of_isAbsolute {p : Path} (hp : p.isAbsolute = true) (here : List String)
    (next : String) :
    destination here (p.join next).text = destination (destination here p.text) next := by
  by_cases hnext : next.startsWith "/" = true
  · rw [join, if_pos hnext, destination, destination, baseOf, baseOf, if_pos hnext, if_pos hnext]
  · have hbase : baseOf here (p.join next).text = [] :=
      baseOf_of_isAbsolute (isAbsolute_join hp next) here
    rw [destination, hbase, foldl_goPiece_join (text_ne_of_isAbsolute hp) hnext, destination,
      baseOf, if_neg hnext, destination, baseOf_of_isAbsolute hp]

/-! ## Paths of names -/

/-- No piece of the path of a location is a dot or goes up. -/
theorem not_mem_piecesOf_ofLocation {l : List String} (hl : ∀ n ∈ l, IsName n) {piece : String}
    (hpiece : piece = "." ∨ piece = "..") : piece ∉ piecesOf (ofLocation l).text := by
  have hempty : piece ≠ "" := by rintro rfl; simp at hpiece
  by_cases hnil : l = []
  · subst hnil
    rw [show piecesOf (ofLocation []).text = ["", ""] by decide +kernel]
    simp [hempty]
  · rw [piecesOf_ofLocation hnil, flatMap_piecesOf_names hl, List.mem_cons, not_or]
    refine ⟨hempty, fun hmem => ?_⟩
    obtain ⟨-, hdot, hup, -⟩ := hl piece hmem
    exact hpiece.elim hdot hup

/-- The normal path of an absolute path is absolute, and no part or piece of it is a dot or goes up.
It is its own normal path, and whatever is joined to it or to the path makes one normal path. -/
theorem normalize_laws {p : Path} (hp : p.isAbsolute = true) :
    p.normalize.isAbsolute = true ∧
    (.here ∉ p.normalize.parts ∧ .up ∉ p.normalize.parts ∧
      "." ∉ piecesOf p.normalize.text ∧ ".." ∉ piecesOf p.normalize.text) ∧
    p.normalize.normalize = p.normalize ∧
    ∀ next : String, (p.join next).normalize = (p.normalize.join next).normalize := by
  have hnames : ∀ n ∈ destination [] p.text, IsName n := isName_of_mem_destination (by simp) p.text
  obtain ⟨names, hparts⟩ := parts_normalize p
  refine ⟨?_, ⟨?_, ?_, ?_, ?_⟩, ?_, fun next => ?_⟩
  · rw [normalize_eq]
    exact startsWith_ofLocation _
  · simp [hparts]
  · simp [hparts]
  · rw [normalize_eq]
    exact not_mem_piecesOf_ofLocation hnames (Or.inl rfl)
  · rw [normalize_eq]
    exact not_mem_piecesOf_ofLocation hnames (Or.inr rfl)
  · rw [normalize_eq, normalize_eq, destination_ofLocation hnames]
  · rw [normalize_eq (p.join next), destination_join_of_isAbsolute hp, normalize_eq p,
      normalize_join hnames]

/-- A path that goes up more often than down, and one that goes on from there. -/
theorem normalize_laws_lib :
    (Path.mk "/srv/./app//../../../lib/").isAbsolute = true ∧
    (Path.mk "/srv/./app//../../../lib/").normalize = ⟨"/lib"⟩ ∧
    (Path.mk "/lib").normalize = ⟨"/lib"⟩ ∧
    ((Path.mk "/srv/./app//../../../lib/").join "a/../../../b/.").normalize =
      ((Path.mk "/lib").join "a/../../../b/.").normalize := by
  have habs : (Path.mk "/srv/./app//../../../lib/").isAbsolute = true := by decide +kernel
  have hlib : (Path.mk "/srv/./app//../../../lib/").normalize = ⟨"/lib"⟩ := by decide +kernel
  obtain ⟨-, -, hsame, hjoin⟩ := normalize_laws habs
  rw [hlib] at hsame hjoin
  exact ⟨habs, hlib, hsame, hjoin "a/../../../b/."⟩

end Scaffold.Path
