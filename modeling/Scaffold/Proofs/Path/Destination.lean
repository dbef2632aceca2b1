import Scaffold.Proofs.Path.Contained

/-!
# Where a text leads piece by piece

A location is a list of names below the top. A text leads from one location to another: a name goes
into it, a double dot goes up, which does nothing at the top, and an empty piece and a dot stay
(`goPiece`). A text that starts at the top leads from there, any other one from where it is read
(`destination`).

A normal path is the absolute path of the location that a path leads to (`normalize_join`), and the
paths above it are those of the beginnings of that location, the longest first
(`find?_ancestors_eq_some_iff`).
-/

namespace Scaffold.Path

/-- The absolute path of a location. -/
def ofLocation (l : List String) : Path := ofStack l.reverse

/-- Where a piece leads from a location. -/
def goPiece (l : List String) (piece : String) : List String :=
  if piece = "" ∨ piece = "." then l else if piece = ".." then l.dropLast else l ++ [piece]

/-- Where a text is read from : from the top if it starts there. -/
def baseOf (here : List String) (text : String) : List String :=
  if text.startsWith "/" then [] else here

/-- Where a text leads to. -/
def destination (here : List String) (text : String) : List String :=
  (piecesOf text).foldl goPiece (baseOf here text)

variable {l : List String}

/-! ## Pieces -/

theorem goPiece_name (l : List String) {n : String} (hn : IsName n) : goPiece l n = l ++ [n] := by
  obtain ⟨hempty, hdot, hup, -⟩ := hn
  rw [goPiece, if_neg (by simp [hempty, hdot]), if_neg hup]

theorem foldl_goPiece_names (l : List String) {names : List String}
    (h : ∀ n ∈ names, IsName n) : names.foldl goPiece l = l ++ names := by
  induction names using List.reverseRecOn with
  | nil => rw [List.foldl_nil, List.append_nil]
  | append_singleton names n ih =>
    rw [List.foldl_concat, ih fun m hm => h m (List.mem_append_left _ hm),
      goPiece_name _ (h n (by simp)), List.append_assoc]

theorem piecesOf_ne_nil (text : String) : piecesOf text ≠ [] := by
  rw [piecesOf, ← Text.pieces_eq_splitOn]
  exact mt List.map_eq_nil_iff.mp (Text.pieces_ne_nil '/' text.toList)

theorem piecesOf_name {n : String} (hn : IsName n) : piecesOf n = [n] := by
  rw [piecesOf, ← Text.pieces_eq_splitOn, Text.pieces_of_not_mem hn.2.2.2, List.map_singleton,
    String.ofList_toList]

theorem piecesOf_intercalate {l : List String} (hl : l ≠ []) :
    piecesOf ("/".intercalate l) = l.flatMap piecesOf := by
  induction l with
  | nil => exact absurd rfl hl
  | cons s l ih =>
    cases l with
    | nil => rw [String.intercalate_singleton, List.flatMap_singleton]
    | cons t l =>
      rw [String.intercalate_cons_cons, piecesOf_append_slash, ih (List.cons_ne_nil t l)]
      rfl

/-! ## Paths of locations -/

theorem text_ofLocation (l : List String) : (ofLocation l).text = "/" ++ "/".intercalate l := by
  rw [ofLocation, ofStack, List.reverse_reverse]

theorem piecesOf_ofLocation (hl : l ≠ []) :
    piecesOf (ofLocation l).text = "" :: l.flatMap piecesOf := by
  have hslash : "/" ++ "/".intercalate l = "" ++ "/" ++ "/".intercalate l := by
    rw [String.empty_append]
  rw [text_ofLocation, hslash, piecesOf_append_slash, piecesOf_intercalate hl]
  rfl

theorem flatMap_piecesOf_names {names : List String} (h : ∀ n ∈ names, IsName n) :
    names.flatMap piecesOf = names := by
  rw [List.flatMap_congr fun n hn => piecesOf_name (h n hn)]
  exact List.flatMap_singleton' names

/-- What follows an absolute path makes an absolute path. -/
theorem isAbsolute_join {p : Path} (hp : p.isAbsolute = true) (next : String) :
    (p.join next).isAbsolute = true := by
  obtain ⟨rest, hrest⟩ := startsWith_slash_iff.mp hp
  rw [join]
  split_ifs with hnext
  · exact hnext
  · exact startsWith_slash_iff.mpr ⟨rest ++ next.toList, by simp [hrest]⟩
  · exact startsWith_slash_iff.mpr ⟨rest ++ '/' :: next.toList, by simp [hrest]⟩

theorem text_ne_of_isAbsolute {p : Path} (hp : p.isAbsolute = true) : p.text ≠ "" := by
  obtain ⟨rest, hrest⟩ := startsWith_slash_iff.mp hp
  rintro hempty
  rw [hempty] at hrest
  cases hrest

theorem startsWith_ofLocation (l : List String) : (ofLocation l).text.startsWith "/" = true := by
  rw [text_ofLocation, startsWith_slash_iff]
  exact ⟨_, String.toList_append⟩

theorem baseOf_of_isAbsolute {p : Path} (hp : p.isAbsolute = true) (here : List String) :
    baseOf here p.text = [] := if_pos hp

/-- The path of a location ends in a slash just at the top. -/
theorem endsWith_ofLocation (hl : ∀ n ∈ l, IsName n) :
    (ofLocation l).text.endsWith "/" = true ↔ l = [] := by
  constructor
  · intro hend
    by_contra hne
    obtain ⟨before, hbefore⟩ := exists_eq_append_slash hend
    have htext : (ofLocation l).text = before ++ "/" ++ "" := by
      rw [String.append_empty, hbefore]
    have hpieces := piecesOf_ofLocation hne
    rw [htext, piecesOf_append_slash, flatMap_piecesOf_names hl] at hpieces
    -- The last piece is empty, but it is the last name.
    have hlast := congrArg List.getLast? hpieces
    rw [show piecesOf "" = [""] from rfl, List.getLast?_concat,
      List.getLast?_cons_of_ne_nil hne] at hlast
    exact (hl "" (List.mem_of_getLast? hlast.symm)).1 rfl
  · rintro rfl
    decide +kernel

/-- A text that does not start at the top goes on after the names of a location. -/
theorem ofLocation_join (hl : ∀ n ∈ l, IsName n) {text : String}
    (htext : ¬text.startsWith "/" = true) : (ofLocation l).join text = ofLocation (l ++ [text]) := by
  have hempty : (ofLocation l).text.isEmpty = false := by
    rw [text_ofLocation]
    simp
  rw [join, if_neg htext, hempty, Bool.false_or, Path.mk.injEq]
  by_cases hnil : l = []
  · rw [if_pos ((endsWith_ofLocation hl).mpr hnil), text_ofLocation, hnil]
    rw [text_ofLocation, List.nil_append, String.intercalate_singleton, String.intercalate_nil,
      String.append_empty]
  · rw [if_neg (mt (endsWith_ofLocation hl).mp hnil), text_ofLocation, text_ofLocation,
      String.intercalate_append_of_ne_nil hnil (by simp), String.intercalate_singleton,
      String.append_assoc, String.append_assoc, String.append_assoc]

theorem piecesOf_ofLocation_join (hl : ∀ n ∈ l, IsName n) {text : String}
    (htext : ¬text.startsWith "/" = true) :
    piecesOf ((ofLocation l).join text).text = "" :: (l ++ piecesOf text) := by
  rw [ofLocation_join hl htext, piecesOf_ofLocation (by simp), List.flatMap_append,
    flatMap_piecesOf_names hl, List.flatMap_singleton]

/-- A text leads to the same place from a location as its path there leads to from the top. -/
theorem destination_join (hl : ∀ n ∈ l, IsName n) (here : List String) (text : String) :
    destination here ((ofLocation l).join text).text = destination l text := by
  by_cases htext : text.startsWith "/" = true
  · rw [join, if_pos htext, destination, destination, baseOf, baseOf, if_pos htext, if_pos htext]
  · rw [destination, destination, piecesOf_ofLocation_join hl htext,
      baseOf_of_isAbsolute (isAbsolute_join (startsWith_ofLocation l) text), baseOf, if_neg htext,
      List.foldl_cons, List.foldl_append]
    exact congrArg (fun l' => List.foldl goPiece l' (piecesOf text)) (foldl_goPiece_names [] hl)

/-- The path of a location leads to it. -/
theorem destination_ofLocation (hl : ∀ n ∈ l, IsName n) (here : List String) :
    destination here (ofLocation l).text = l := by
  rw [destination, baseOf_of_isAbsolute (startsWith_ofLocation l)]
  by_cases hnil : l = []
  · subst hnil
    decide +kernel
  · rw [piecesOf_ofLocation hnil, flatMap_piecesOf_names hl]
    exact foldl_goPiece_names [] hl

/-! ## Normal paths -/

/-- A piece goes where its part does on a stack. -/
theorem goPiece_reverse (stack : List String) (piece : String) :
    goPiece stack.reverse piece =
      ((partOf? piece.toList).elim stack (stepNormal stack)).reverse := by
  rw [partOf?_toList, goPiece]
  split_ifs
  · rfl
  · rw [Option.elim_some, stepNormal, List.drop_one, List.dropLast_reverse]
  · exact List.reverse_cons.symm

theorem foldl_stepNormal_bodyOf (text : String) (stack : List String) :
    (bodyOf text.toList).foldl stepNormal stack =
      ((piecesOf text).foldl goPiece stack.reverse).reverse := by
  rw [bodyOf_toList]
  induction piecesOf text generalizing stack with
  | nil => exact (List.reverse_reverse stack).symm
  | cons piece rest ih =>
    rw [List.foldl_cons, List.filterMap_cons, goPiece_reverse]
    cases partOf? piece.toList with
    | none => exact ih stack
    | some part => exact ih (stepNormal stack part)

/-- The names of a normal path are where the path leads to from the top. -/
theorem foldl_stepNormal_parts (p : Path) :
    p.parts.foldl stepNormal [] = (destination [] p.text).reverse := by
  have hbase : baseOf [] p.text = [] := ite_self []
  have hstart : (startOf p.text.toList).foldl stepNormal [] = [] := by
    rcases startOf_toList p.text with ⟨hstart, -⟩ | ⟨hstart, -⟩
    · rw [hstart]
      rfl
    · simp only [List.mem_cons, List.not_mem_nil, or_false] at hstart
      rcases hstart with hstart | hstart <;> rw [hstart] <;> rfl
  rw [parts, partsOf_eq, List.foldl_append, hstart, foldl_stepNormal_bodyOf, List.reverse_nil,
    destination, hbase]

/-- A text names a directory by where it leads to, with and without the path it is read from. -/
theorem normalize_join (hl : ∀ n ∈ l, IsName n) (text : String) :
    ((ofLocation l).join text).normalize = ofLocation (destination l text) := by
  rw [normalize, foldl_stepNormal_parts, destination_join hl]
  rfl

/-- All that a text leads through are names. -/
theorem isName_of_mem_destination (hl : ∀ n ∈ l, IsName n) (text : String) :
    ∀ n ∈ destination l text, IsName n := by
  have hnames : ∀ n ∈ ((ofLocation l).join text).parts.foldl stepNormal [], IsName n :=
    isName_of_mem_foldl_stepNormal (fun n => isName_of_mem_parts) (by simp)
  rw [foldl_stepNormal_parts, destination_join hl] at hnames
  exact fun n hn => hnames n (List.mem_reverse.mpr hn)

/-! ## Paths above a path -/

theorem ancestors_ofLocation (hl : ∀ n ∈ l, IsName n) :
    (ofLocation l).ancestors = ancestorsOfStack l.reverse := by
  rw [ancestors, foldl_stepNormal_parts, destination_ofLocation hl]

theorem ancestorsOfStack_concat (l : List String) (n : String) :
    ancestorsOfStack (l ++ [n]).reverse = ofLocation (l ++ [n]) :: ancestorsOfStack l.reverse := by
  rw [ofLocation, List.reverse_concat]
  rfl

/-- The paths above the path of a location are those of its beginnings. -/
theorem mem_ancestorsOfStack {l : List String} {p : Path} :
    p ∈ ancestorsOfStack l.reverse ↔ ∃ l', l' <+: l ∧ p = ofLocation l' := by
  induction l using List.reverseRecOn with
  | nil => simp [ancestorsOfStack, ofLocation]
  | append_singleton l n ih =>
    rw [ancestorsOfStack_concat, List.mem_cons, ih]
    simp [List.prefix_concat_iff, or_and_right, exists_or]

/-- The first path above the path of a location that passes a test is the one of the longest
beginning that does. -/
theorem find?_ancestorsOfStack {l : List String} {test : Path → Bool} {p : Path} :
    (ancestorsOfStack l.reverse).find? test = some p ↔
      ∃ l', l' <+: l ∧ test (ofLocation l') = true ∧
        (∀ l'', l'' <+: l → test (ofLocation l'') = true → l'' <+: l') ∧ p = ofLocation l' := by
  induction l using List.reverseRecOn with
  | nil =>
    rw [List.reverse_nil, ancestorsOfStack, List.find?_singleton]
    change (if test (ofLocation []) = true then some (ofLocation []) else none) = some p ↔ _
    by_cases htest : test (ofLocation []) = true
    · rw [if_pos htest, Option.some.injEq]
      constructor
      · rintro rfl
        exact ⟨[], List.prefix_rfl, htest, fun l'' h _ => h, rfl⟩
      · rintro ⟨l', hl', -, -, rfl⟩
        rw [List.prefix_nil.mp hl']
    · rw [if_neg htest]
      refine iff_of_false nofun ?_
      rintro ⟨l', hl', hpass, -, -⟩
      rw [List.prefix_nil.mp hl'] at hpass
      exact htest hpass
  | append_singleton l n ih =>
    rw [ancestorsOfStack_concat]
    cases htest : test (ofLocation (l ++ [n])) with
    | true =>
      rw [List.find?_cons_of_pos htest, Option.some.injEq]
      constructor
      · rintro rfl
        exact ⟨l ++ [n], List.prefix_rfl, htest, fun l'' h _ => h, rfl⟩
      · rintro ⟨l', hl', -, hlongest, rfl⟩
        rw [hl'.eq_of_length_le (hlongest _ List.prefix_rfl htest).length_le]
    | false =>
      rw [List.find?_cons_of_neg (by simp [htest]), ih]
      have hbelow {l' : List String} (h : test (ofLocation l') = true) :
          l' <+: l ++ [n] ↔ l' <+: l := by
        rw [List.prefix_concat_iff]
        refine or_iff_right ?_
        rintro rfl
        simp [htest] at h
      refine exists_congr fun l' => ⟨?_, ?_⟩
      · rintro ⟨hl', hpass, hlongest, rfl⟩
        exact ⟨(hbelow hpass).mpr hl', hpass,
          fun l'' h h' => hlongest l'' ((hbelow h').mp h) h', rfl⟩
      · rintro ⟨hl', hpass, hlongest, rfl⟩
        exact ⟨(hbelow hpass).mp hl', hpass,
          fun l'' h h' => hlongest l'' ((hbelow h').mpr h) h', rfl⟩

end Scaffold.Path
