import Scaffold.Project
import Scaffold.Proofs.Disk.Way
import Scaffold.Proofs.Path.Destination

/-!
# The guard of projects

A directory is refused if it is in a project, whatever way it is spelled. The guard looks at the
location that the argument leads to piece by piece, and at all those above it, and names the deepest
one that holds a project file (`ProjectDir.guard_eq_error_iff`).

The pieces are gone over without a look at the disk. They lead to the same place as the system does
if they lead through directories alone (`Disk.resolve_of_through`). So for a disk without links on
the way, the guard looks at the directory that the argument names (`ProjectDir.guard_ofArgument`).
-/

namespace Scaffold

open Scaffold.Path Disk

namespace Disk

/-! ## Going through directories -/

/-- Whether pieces lead through directories from a location, up to the last piece. -/
def Through (top : Node) : Location → List String → Prop
  | _, [] => True
  | l, piece :: rest => top.layout l = some .dir ∧ Through top (goPiece l piece) rest

variable {top : Node} {l : Location} {pieces : List String}

theorem through_append {more : List String} :
    Through top l (pieces ++ more) ↔
      Through top l pieces ∧ Through top (pieces.foldl goPiece l) more := by
  induction pieces generalizing l with
  | nil => exact (and_iff_right trivial).symm
  | cons piece pieces ih => rw [List.cons_append, Through, Through, ih, and_assoc, List.foldl_cons]

theorem through_names {names : List String} (hnames : ∀ n ∈ names, IsName n)
    (h : ∀ front, front <+: names → front ≠ names → top.layout (l ++ front) = some .dir) :
    Through top l names := by
  induction names using List.reverseRecOn with
  | nil => trivial
  | append_singleton names n ih =>
    have hfront : ∀ m ∈ names, IsName m := fun m hm => hnames m (List.mem_append_left _ hm)
    rw [through_append, foldl_goPiece_names l hfront]
    refine ⟨ih hfront fun front hpre hne => ?_, ?_, trivial⟩
    · refine h front (hpre.trans (List.prefix_append names [n])) ?_
      rintro rfl
      exact absurd hpre.length_le (by simp)
    · exact h names (List.prefix_append names [n]) (by simp)

theorem Through.head (h : Through top l pieces) (hne : pieces ≠ []) : top.layout l = some .dir := by
  obtain ⟨piece, rest, rfl⟩ := List.exists_cons_of_ne_nil hne
  exact h.1

/-- Pieces that lead through directories lead to one, or into one. -/
theorem Through.exists_dir (h : Through top l pieces) (hne : pieces ≠ []) :
    ∃ m, top.layout m = some .dir ∧
      (pieces.foldl goPiece l <+: m ∨ ∃ n, pieces.foldl goPiece l = m ++ [n]) := by
  obtain ⟨init, piece, rfl⟩ := List.eq_nil_or_concat' pieces |>.resolve_left hne
  obtain ⟨-, hdir, -⟩ := through_append.mp h
  refine ⟨_, hdir, ?_⟩
  rw [List.foldl_concat, goPiece]
  split_ifs
  · exact Or.inl List.prefix_rfl
  · exact Or.inl (List.dropLast_prefix _)
  · exact Or.inr ⟨piece, rfl⟩

/-- Everything above where pieces lead through directories is a directory. -/
theorem Through.above (h : Through top l pieces) (hne : pieces ≠ []) {front : Location}
    (hfront : front <+: pieces.foldl goPiece l) (hproper : front ≠ pieces.foldl goPiece l) :
    top.layout front = some .dir := by
  obtain ⟨m, hdir, hm | ⟨n, hm⟩⟩ := h.exists_dir hne
  · exact Node.layout_above hdir (hfront.trans hm)
  · rw [hm] at hfront hproper
    exact Node.layout_above hdir ((List.prefix_concat_iff.mp hfront).resolve_left hproper)

/-- A text leads through the same directories after the path that it is read from. -/
theorem through_join {here : Location} (hhere : ∀ n ∈ here, IsName n) {text : String}
    (h : Through top (baseOf here text) (piecesOf text)) :
    Through top (baseOf here ((ofLocation here).join text).text)
      (piecesOf ((ofLocation here).join text).text) := by
  by_cases htext : text.startsWith "/" = true
  · rw [join, if_pos htext]
    exact h
  · rw [baseOf, if_neg htext] at h
    have hdir := h.head (piecesOf_ne_nil text)
    rw [baseOf_of_isAbsolute (isAbsolute_join (startsWith_ofLocation here) text),
      piecesOf_ofLocation_join hhere htext]
    refine ⟨Node.layout_above hdir List.nil_prefix, ?_⟩
    have hnames : Through top [] here :=
      through_names hhere fun front hfront _ => Node.layout_above hdir hfront
    have hstart : here.foldl goPiece [] = here := foldl_goPiece_names [] hhere
    exact through_append.mpr ⟨hnames, hstart.symm ▸ h⟩

/-- The path of a location leads through directories if all above the location is one. -/
theorem through_ofLocation {place : Location} (hplace : ∀ n ∈ place, IsName n)
    (htop : top.layout [] = some .dir)
    (h : ∀ front, front <+: place → front ≠ place → top.layout front = some .dir)
    {p : Path} (hp : p = ofLocation place) (here : Location) :
    Through top (baseOf here p.text) (piecesOf p.text) := by
  subst hp
  rw [baseOf_of_isAbsolute (startsWith_ofLocation place)]
  by_cases hnil : place = []
  · subst hnil
    have hpieces : piecesOf (ofLocation []).text = ["", ""] := by decide +kernel
    rw [hpieces]
    exact ⟨htop, htop, trivial⟩
  · rw [piecesOf_ofLocation hnil, flatMap_piecesOf_names hplace]
    exact ⟨htop, through_names hplace h⟩

/-! ## Walks through directories -/

theorem stepOf_toList (piece : String) :
    stepOf piece.toList =
      if piece = "" ∨ piece = "." then .here else if piece = ".." then .up else .name piece := by
  rw [stepOf_eq, partOf?_toList]
  split_ifs <;> rfl

/-- A walk along pieces that lead through directories leads where the pieces do. -/
theorem walk_of_through (links : Nat) (h : Through top l pieces)
    (hlink : ∀ target, top.layout (pieces.foldl goPiece l) ≠ some (.link target)) :
    walk top true (links + 1) l (pieces.map fun piece => stepOf piece.toList) =
      .ok ⟨pieces.foldl goPiece l, top.at? (pieces.foldl goPiece l)⟩ := by
  induction pieces generalizing l with
  | nil => rfl
  | cons piece rest ih =>
    obtain ⟨hdir, hrest⟩ := h
    have ih := ih hrest hlink
    rw [List.foldl_cons] at hlink ⊢
    rw [List.map_cons, walk_cons, hdir, stepOf_toList]
    by_cases hstay : piece = "" ∨ piece = "."
    · have hgo : goPiece l piece = l := if_pos hstay
      rw [if_pos hstay]
      rw [hgo] at ih ⊢
      exact ih
    rw [if_neg hstay]
    by_cases hup : piece = ".."
    · have hgo : goPiece l piece = l.dropLast := by rw [goPiece, if_neg hstay, if_pos hup]
      rw [if_pos hup]
      rw [hgo] at ih ⊢
      exact ih
    have hgo : goPiece l piece = l ++ [piece] := by rw [goPiece, if_neg hstay, if_neg hup]
    rw [if_neg hup]
    rw [hgo] at ih hlink hrest ⊢
    dsimp only
    -- Where there is no directory nothing can follow the name.
    have hlast (hname : top.layout (l ++ [piece]) ≠ some .dir) : rest = [] := by
      cases rest with
      | nil => rfl
      | cons next rest => exact absurd hrest.1 hname
    cases hname : top.layout (l ++ [piece]) with
    | none =>
      obtain rfl := hlast (by simp [hname])
      rw [List.foldl_nil, Node.layout_eq_none.mp hname]
      rfl
    | some i =>
      cases i with
      | link target =>
        obtain rfl := hlast (by simp [hname])
        exact absurd hname (hlink target)
      | dir | file bytes executable => exact ih

/-- Slashes at the beginning of a text lead nowhere. -/
theorem walk_stepsOf (links : Nat) {text : String} (h : Through top l (piecesOf text))
    (hlink : ∀ target, top.layout ((piecesOf text).foldl goPiece l) ≠ some (.link target)) :
    walk top true (links + 1) l (stepsOf text).2 =
      .ok ⟨(piecesOf text).foldl goPiece l, top.at? ((piecesOf text).foldl goPiece l)⟩ := by
  rw [stepsOf]
  rw [piecesOf] at h hlink ⊢
  dsimp only
  generalize text.toList = chars at h hlink ⊢
  induction chars with
  | nil => rfl
  | cons c chars ih =>
    by_cases hc : c = '/'
    · subst hc
      have hsplit : ('/' :: chars).splitOn '/' = [] :: chars.splitOn '/' :=
        (List.splitOn_append_cons_self [] chars).trans (by rw [List.splitOn_nil]; rfl)
      rw [hsplit] at h hlink ⊢
      rw [List.dropWhile_cons_of_pos (by simp)]
      exact ih h.2 hlink
    · rw [List.dropWhile_cons_of_neg (by simpa using hc), List.isEmpty_cons,
        if_neg Bool.false_ne_true, Text.pieces_eq_splitOn]
      have hmap : ((c :: chars).splitOn '/').map stepOf =
          (((c :: chars).splitOn '/').map String.ofList).map fun piece => stepOf piece.toList := by
        simp
      rw [hmap]
      exact walk_of_through links h hlink

/-- A path leads where its pieces do if they lead through directories. -/
theorem resolve_of_through {d : Disk} {p : Path} {place : Location} (hp : p.text ≠ "")
    (hplace : destination d.here p.text = place)
    (h : Through d.top (baseOf d.here p.text) (piecesOf p.text))
    (hlink : ∀ target, d.top.layout place ≠ some (.link target)) :
    d.resolve true p = .ok ⟨place, d.top.at? place⟩ := by
  subst hplace
  have hbase : (if (stepsOf p.text).1 = true then [] else d.here) = baseOf d.here p.text := by
    rw [baseOf]
    refine if_congr ?_ rfl rfl
    rw [startsWith_slash_iff, stepsOf, decide_eq_true_iff, List.head?_eq_some_iff]
  rw [resolve, if_neg (by simpa using hp)]
  dsimp only
  rw [hbase]
  exact walk_stepsOf maxLinks h hlink

/-- The path of a location leads there if all above the location is a directory. -/
theorem resolve_ofLocation {d : Disk} {place : Location} (hplace : ∀ n ∈ place, IsName n)
    (htop : d.top.layout [] = some .dir)
    (h : ∀ front, front <+: place → front ≠ place → d.top.layout front = some .dir)
    (hlink : ∀ target, d.top.layout place ≠ some (.link target)) {p : Path}
    (hp : p = ofLocation place) : d.resolve true p = .ok ⟨place, d.top.at? place⟩ := by
  refine resolve_of_through ?_ ?_ (through_ofLocation hplace htop h hp d.here) hlink
  · rw [hp]
    exact text_ne_of_isAbsolute (startsWith_ofLocation place)
  · rw [hp]
    exact destination_ofLocation hplace d.here

/-- A path that starts at the top leads to the same place from everywhere. -/
theorem resolve_congr_of_isAbsolute {d d' : Disk} (ht : d'.top = d.top) {p : Path}
    (hp : p.isAbsolute = true) (followLast : Bool) :
    d'.resolve followLast p = d.resolve followLast p := by
  obtain ⟨rest, hrest⟩ := startsWith_slash_iff.mp hp
  have hfst : (stepsOf p.text).1 = true := by
    rw [stepsOf, hrest]
    rfl
  rw [resolve, resolve]
  dsimp only
  rw [hfst, ht]
  rfl

/-! ## Files in directories -/

/-- Whether a location holds a file of some name. Links are followed, and a directory is no file. -/
def HoldsFile (d : Disk) (l : Location) (name : String) : Prop :=
  ∃ l' bytes executable, d.stat ((ofLocation l).join name) = .ok (l', .file bytes executable)

theorem isFile_join_iff {d : Disk} {l : Location} {name : String} :
    d.isFile ((ofLocation l).join name) = true ↔ d.HoldsFile l name := by
  rw [isFile, HoldsFile]
  cases d.stat ((ofLocation l).join name) with
  | error f => simp [Except.toOption]
  | ok found =>
    obtain ⟨l', n⟩ := found
    cases n <;> simp [Except.toOption, Node.isFile]

theorem holdsFile_congr {d d' : Disk} (ht : d'.top = d.top) (l : Location) (name : String) :
    d'.HoldsFile l name ↔ d.HoldsFile l name := by
  have habs : ((ofLocation l).join name).isAbsolute = true :=
    isAbsolute_join (startsWith_ofLocation l) name
  rw [HoldsFile, HoldsFile, stat, stat, resolve_congr_of_isAbsolute ht habs]

end Disk

namespace ProjectDir

variable (d : Disk) (projectFile manifestFile : String) (argument : Path)

/-- An argument names the directory that it leads to from the directory that paths start from. -/
theorem path_ofArgument (hhere : ∀ n ∈ d.here, IsName n) :
    (ofArgument d projectFile manifestFile argument).path =
      ofLocation (destination d.here argument.text) := by
  have hjoin : (if argument.isAbsolute then argument else (herePath d).join argument.text) =
      (ofLocation d.here).join argument.text := by
    split_ifs with habs
    · exact (if_pos habs).symm
    · rfl
  rw [ofArgument, hjoin]
  exact normalize_join hhere argument.text

variable {d} {p : ProjectDir} {place : Location}

theorem enclosing?_eq_some_iff (hp : p.path = ofLocation place) (hplace : ∀ n ∈ place, IsName n)
    {path : Path} :
    p.enclosing? d = some path ↔ ∃ l, l <+: place ∧ d.HoldsFile l p.projectFile ∧
      (∀ l', l' <+: place → d.HoldsFile l' p.projectFile → l' <+: l) ∧ path = ofLocation l := by
  rw [enclosing?, hp, ancestors_ofLocation hplace, find?_ancestorsOfStack]
  simp only [isFile_join_iff]

/-- A directory is refused for the deepest project that it is in. -/
theorem guard_eq_error_iff (hp : p.path = ofLocation place) (hplace : ∀ n ∈ place, IsName n)
    {f : Failure} :
    p.guard d = .error f ↔ ∃ l, l <+: place ∧ d.HoldsFile l p.projectFile ∧
      (∀ l', l' <+: place → d.HoldsFile l' p.projectFile → l' <+: l) ∧
      f = .insideProject (ofLocation l) := by
  have hguard : p.guard d = .error f ↔
      ∃ path, p.enclosing? d = some path ∧ f = .insideProject path := by
    rw [guard]
    cases p.enclosing? d <;> simp [eq_comm]
  rw [hguard]
  simp only [enclosing?_eq_some_iff hp hplace]
  constructor
  · rintro ⟨_, ⟨l, hl, hholds, hdeepest, rfl⟩, rfl⟩
    exact ⟨l, hl, hholds, hdeepest, rfl⟩
  · rintro ⟨l, hl, hholds, hdeepest, rfl⟩
    exact ⟨_, ⟨l, hl, hholds, hdeepest, rfl⟩, rfl⟩

/-- A directory passes if it is in no project. -/
theorem guard_eq_ok_iff (hp : p.path = ofLocation place) (hplace : ∀ n ∈ place, IsName n) :
    p.guard d = .ok () ↔ ∀ l, l <+: place → ¬d.HoldsFile l p.projectFile := by
  have hguard : p.guard d = .ok () ↔ p.enclosing? d = none := by
    rw [guard]
    cases p.enclosing? d <;> simp
  rw [hguard, enclosing?, hp, ancestors_ofLocation hplace, List.find?_eq_none]
  constructor
  · intro h l hl hholds
    exact h _ (mem_ancestorsOfStack.mpr ⟨l, hl, rfl⟩) (isFile_join_iff.mpr hholds)
  · intro h path hpath hfile
    obtain ⟨l, hl, rfl⟩ := mem_ancestorsOfStack.mp hpath
    exact h l hl (isFile_join_iff.mp hfile)

/-- What the guard says depends on the place and on the tree of files alone. -/
theorem guard_congr {d' : Disk} {p' : ProjectDir} (ht : d'.top = d.top)
    (hfile : p'.projectFile = p.projectFile) (hp : p.path = ofLocation place)
    (hp' : p'.path = ofLocation place) (hplace : ∀ n ∈ place, IsName n) :
    p'.guard d' = p.guard d := by
  have hsame : p'.enclosing? d' = p.enclosing? d := by
    refine Option.ext fun path => ?_
    rw [enclosing?_eq_some_iff hp hplace, enclosing?_eq_some_iff hp' hplace, hfile]
    simp only [holdsFile_congr ht]
  rw [guard, guard, hsame]

end ProjectDir

/-- The guard of an argument looks at the location that the argument leads to piece by piece. It
passes if no directory from the top down to there holds a project file, and names the deepest one
that does otherwise. So it says the same for all arguments that lead to one place, from whatever
directory they start. If an argument leads through directories up to its last piece and to no link,
the system is led to the same place by the argument, by the argument after the directory that paths
start from, and by the path that the guard looks at. -/
theorem ProjectDir.guard_ofArgument (d : Disk) (projectFile manifestFile : String)
    (argument : Path) (hhere : ∀ n ∈ d.here, IsName n) :
    let project := ofArgument d projectFile manifestFile argument
    let place := destination d.here argument.text
    project.path = ofLocation place ∧
    (project.guard d = .ok () ↔ ∀ l, l <+: place → ¬d.HoldsFile l projectFile) ∧
    (∀ f, project.guard d = .error f ↔ ∃ l, l <+: place ∧ d.HoldsFile l projectFile ∧
      (∀ l', l' <+: place → d.HoldsFile l' projectFile → l' <+: l) ∧
      f = .insideProject (ofLocation l)) ∧
    (∀ (d' : Disk) (manifestFile' : String) (argument' : Path), d'.top = d.top →
      (∀ n ∈ d'.here, IsName n) → destination d'.here argument'.text = place →
      (ofArgument d' projectFile manifestFile' argument').guard d' = project.guard d) ∧
    (Through d.top (baseOf d.here argument.text) (piecesOf argument.text) →
      (∀ target, d.top.layout place ≠ some (.link target)) →
      (argument.text ≠ "" → d.resolve true argument = .ok ⟨place, d.top.at? place⟩) ∧
      d.resolve true ((herePath d).join argument.text) = .ok ⟨place, d.top.at? place⟩ ∧
      d.resolve true project.path = .ok ⟨place, d.top.at? place⟩) := by
  intro project place
  have hpath : project.path = ofLocation place :=
    path_ofArgument d projectFile manifestFile argument hhere
  have hplace : ∀ n ∈ place, IsName n := isName_of_mem_destination hhere argument.text
  refine ⟨hpath, guard_eq_ok_iff hpath hplace, fun f => guard_eq_error_iff hpath hplace,
    fun d' manifestFile' argument' ht hhere' hsame => ?_, fun hthrough hlink => ⟨?_, ?_, ?_⟩⟩
  · have hpath' : (ofArgument d' projectFile manifestFile' argument').path = ofLocation place := by
      rw [path_ofArgument d' projectFile manifestFile' argument' hhere', hsame]
    exact guard_congr ht rfl hpath hpath' hplace
  · intro hne
    exact resolve_of_through hne rfl hthrough hlink
  · exact resolve_of_through (text_ne_of_isAbsolute (isAbsolute_join (startsWith_ofLocation _) _))
      (destination_join hhere d.here argument.text) (through_join hhere hthrough) hlink
  · have hne := piecesOf_ne_nil argument.text
    obtain ⟨m, hdir, -⟩ := hthrough.exists_dir hne
    exact resolve_ofLocation hplace (Node.layout_above hdir List.nil_prefix)
      (fun front => hthrough.above hne) hlink hpath

/-- A disk with a project and a directory that paths start from. -/
def projectDisk : Disk :=
  { top := .dir [("srv", .dir [("app", .dir [("docs", .dir []), ("project.yml", .file ⟨#[]⟩ false)]),
      ("lib", .dir [])])]
    here := ["srv", "lib"] }

/-- A directory that is not there yet is refused as one in a project, in two spellings, and it is
the one that the system would be led to. -/
theorem guard_projectDisk :
    (∀ n ∈ projectDisk.here, IsName n) ∧
    let guardOf (argument : String) :=
      (ProjectDir.ofArgument projectDisk "project.yml" "template.yml" ⟨argument⟩).guard projectDisk
    guardOf "../.././../srv//app/docs/../new" = .error (.insideProject ⟨"/srv/app"⟩) ∧
    guardOf "/srv/app/new/" = guardOf "../.././../srv//app/docs/../new" ∧
    projectDisk.resolve true ⟨"../.././../srv//app/docs/../new"⟩ =
      .ok ⟨["srv", "app", "new"], none⟩ := by
  have hhere : ∀ n ∈ projectDisk.here, IsName n := by decide
  obtain ⟨-, -, herror, hsame, hresolve⟩ := ProjectDir.guard_ofArgument projectDisk "project.yml"
    "template.yml" ⟨"../.././../srv//app/docs/../new"⟩ hhere
  have hplace : destination projectDisk.here "../.././../srv//app/docs/../new" =
      ["srv", "app", "new"] := by decide +kernel
  rw [hplace] at herror hsame hresolve
  have hpieces : piecesOf "../.././../srv//app/docs/../new" =
      ["..", "..", ".", "..", "srv", "", "app", "docs", "..", "new"] := by decide +kernel
  rw [hpieces] at hresolve
  have hbase : baseOf projectDisk.here "../.././../srv//app/docs/../new" = ["srv", "lib"] := by
    decide +kernel
  rw [hbase] at hresolve
  have hproject : projectDisk.HoldsFile ["srv", "app"] "project.yml" :=
    isFile_join_iff.mp (by decide +kernel)
  have hnew : ¬projectDisk.HoldsFile ["srv", "app", "new"] "project.yml" :=
    fun hholds => absurd (isFile_join_iff.mpr hholds) (by decide +kernel)
  refine ⟨hhere, ?_⟩
  intro guardOf
  refine ⟨?_, ?_, ?_⟩
  · refine (herror _).mpr ?_
    refine ⟨["srv", "app"], by decide, hproject, fun l hl hholds => ?_, by decide +kernel⟩
    refine (List.prefix_concat_iff.mp hl).resolve_left ?_
    rintro rfl
    exact hnew hholds
  · exact hsame projectDisk "template.yml" ⟨"/srv/app/new/"⟩ rfl hhere (by decide +kernel)
  · refine (hresolve ?_ fun target => nofun).1 (by decide)
    exact ⟨rfl, rfl, rfl, rfl, rfl, rfl, rfl, rfl, rfl, rfl, trivial⟩

end Scaffold
