import Scaffold.Proofs.Repository.Creating

/-!
# Repositories that are made, whatever they are at

The directory of a repository that is made reads as one with the same address to fetch from and the
same commit that is tracked, whatever its head and its branches are (`exists_ofDir_create`), and a
head at a commit is read as it is (`headOfText?_detached`). When another commit is tracked from then
on, the directory reads as a repository with that one (`exists_ofDir_track`).
-/

namespace Scaffold

open Disk Node

namespace Repository

variable {h : History} {r : Repository} {dir : Node} {id : CommitId} {l x : Location}

/-! ## What is written -/

/-- Whether a location is that of the file of a branch or of a commit. -/
def IsListed (l : Location) : Prop :=
  (∃ name, l = branchesDir ++ Snapshot.locationOf name) ∨ IsCommitFile l

/-- Whether something is written at a location when a repository is made. -/
def IsMade (l : Location) : Prop := l = headFile ∨ l = trackedFile ∨ IsListed l

theorem isSome_map_of_none_ne {α β : Type} {f : α → β} {o : Option α} (h : none ≠ o) :
    (o.map f).isSome = true := by
  rw [Option.isSome_map]
  exact Option.isSome_iff_ne_none.mpr h.symm

theorem writes_listed (branches : Entries CommitId) (commits : List CommitId) (dir : Node) :
    Writes IsListed dir (saveBranches [] branches (saveCommits [] commits dir)) := by
  refine (writes_saveCommits (fun id => Or.inr ⟨id, rfl⟩) [] commits dir).trans ?_
  refine Writes.foldl (fun n name _ => writes_saveText (fun hne => ⟨?_, ?_⟩) n) _
  · exact Or.inl ⟨name, rfl⟩
  · exact isSome_map_of_none_ne hne

/-- A repository is made by writing its branches and commits, then what is tracked, and the head. -/
theorem create_eq_saveText (r : Repository) :
    create r = saveText (·.map headText) none r.head headFile
      (saveText (·.map fun id => commitText id ++ "\n") none r.tracked trackedFile
        (saveBranches [] r.branches (saveCommits [] r.commits (bareDir r.origin)))) := by
  rw [← saveText_self (fun o => some (settingsText o)) r.origin settingsFile
    (saveText _ none r.tracked trackedFile _)]
  rfl

theorem writes_made (r : Repository) : Writes IsMade (bareDir r.origin) (create r) := by
  rw [create_eq_saveText]
  exact ((writes_listed _ _ _).mono fun _ hl => Or.inr (Or.inr hl)).trans <|
    (writes_saveText (fun hne => ⟨Or.inr (Or.inl rfl), isSome_map_of_none_ne hne⟩) _).trans
      (writes_saveText (fun hne => ⟨Or.inl rfl, isSome_map_of_none_ne hne⟩) _)

theorem apart_isListed (hbranches : Apart branchesDir x) (hcommits : Apart commitsDir x) (l : Location)
    (hl : IsListed l) : Apart l x := by
  rcases hl with ⟨name, rfl⟩ | hl
  · exact hbranches.append_left _
  · exact apart_commitFile hcommits l hl

theorem apart_isMade (hx : Apart headFile x ∧ Apart trackedFile x ∧ Apart branchesDir x ∧
    Apart commitsDir x) (l : Location) (hl : IsMade l) : Apart l x := by
  rcases hl with rfl | rfl | hl
  · exact hx.1
  · exact hx.2.1
  · exact apart_isListed hx.2.2.1 hx.2.2.2 l hl

/-- Nothing is written in place of the directories for commits and branches. -/
theorem not_prefix_of_isMade (hx : x ∈ [commitsDir, refsDir]) (l : Location) (hl : IsMade l) :
    ¬l <+: x := by
  rcases hl with rfl | rfl | ⟨name, rfl⟩ | ⟨id, rfl⟩
  · exact not_prefix_of_isFileOf (IsFileOf.head : IsFileOf "" headFile) hx
  · exact not_prefix_of_isFileOf (IsFileOf.tracked : IsFileOf "" trackedFile) hx
  · exact not_prefix_of_isFileOf (IsFileOf.branch : IsFileOf name _) hx
  · exact not_prefix_of_isFileOf (IsFileOf.commit id : IsFileOf "" _) hx

/-- The places for commits and branches are there. -/
theorem layout_create (r : Repository) (hl : l ∈ [commitsDir, refsDir]) :
    (create r).layout l = some .dir :=
  (writes_made r).dirs l (not_prefix_of_isMade hl) (layout_bareDir r.origin hl)

/-! ## What is read -/

/-- The commit that is tracked is in its file. -/
theorem commitAt?_create (hknown : ∀ id, r.tracked = some id → id < h.commits.length) :
    commitAt? h (create r) trackedFile = r.tracked := by
  have hwrites (dir : Node) :
      Writes (· = headFile) dir (saveText (·.map headText) none r.head headFile dir) :=
    writes_saveText (W := (· = headFile)) (fun hne => ⟨rfl, isSome_map_of_none_ne hne⟩) dir
  have hhead (dir : Node) := (hwrites dir).same trackedFile fun l hl => hl ▸ by decide
  rw [create_eq_saveText, commitAt?_congr h (hhead _)]
  cases htracked : r.tracked with
  | none =>
    have hempty : emptyDir.at? trackedFile = none := rfl
    have hnone : (bareDir r.origin).at? trackedFile = none := by
      rw [bareDir, at?_force_of_apart _ (by decide), hempty]
    have hlisted := (writes_listed r.branches r.commits (bareDir r.origin)).same trackedFile
      (apart_isListed (by decide) (by decide))
    rw [saveText_self, commitAt?, textAt?, hlisted, hnone]
    rfl
  | some id =>
    exact commitAt?_commitText (hknown id htracked)
      (at?_saveText (Option.some_ne_none id).symm rfl trackedFile _)

/-- A repository that is made is read with its address and the commit that is tracked. -/
theorem exists_ofDir_create {head : Head} (hhead : r.head = some head)
    (hknown : ∀ id, r.tracked = some id → id < h.commits.length) :
    ∃ r', ofDir h (create r) = .ok r' ∧ r'.head = headOfText? h (headText head) ∧
      r'.origin = r.origin ∧ r'.tracked = r.tracked := by
  have hwrites := writes_made r
  have hheadAt : (create r).at? headFile = some (textFile (headText head)) := by
    rw [create_eq_saveText, hhead]
    exact at?_saveText (Option.some_ne_none head).symm rfl headFile _
  have hsettingsAt : (create r).at? settingsFile = some (textFile (settingsText r.origin)) := by
    rw [hwrites.same _ (apart_isMade (by decide))]
    exact at?_force_textFile _ _ _
  obtain ⟨settings, hsettings, horigin⟩ := exists_ofText_settingsText r.origin
  have hrepo : isRepository (create r) = true := by
    simp only [isRepository, Bool.and_eq_true, isDir_at?]
    exact ⟨⟨by rw [hheadAt]; rfl, layout_create r (by simp)⟩, layout_create r (by simp)⟩
  have hsettingsOf : settingsOf (create r) = .ok settings := by
    rw [settingsOf, hsettingsAt, textAt?_textFile hsettingsAt, Option.bind_some, hsettings]
  refine ⟨_, ofDir_eq_ok.mpr ⟨hrepo, settings, hsettingsOf, rfl⟩, ?_, horigin,
    commitAt?_create hknown⟩
  dsimp only
  rw [textAt?_textFile hheadAt, Option.bind_some]

/-- A head at a commit that is known is read from what was written for it. -/
theorem headOfText?_detached (hid : id < h.commits.length) :
    headOfText? h (headText (.detached id)) = some (.detached id) := by
  have hline : firstLine (headText (.detached id)) = commitText id :=
    firstLine_append (newline_not_mem_commitText id)
  -- The text of a commit does not start as a link does.
  have hlead : without? linkLead (commitText id) = none := by
    have htext : linkLead.toList = ['r', 'e', 'f', ':', ' '] := by decide +kernel
    rw [without?, if_neg]
    rw [toList_commitText, htext]
    simp
  unfold headOfText?
  dsimp only
  rw [hline, hlead]
  dsimp only
  rw [commitOfText?_eq_some.mpr ⟨hid, rfl⟩]
  rfl

/-- A commit that a directory holds is known. -/
theorem lt_length_of_mem_commits (hread : ofDir h dir = .ok r) (hid : id ∈ r.commits) :
    id < h.commits.length := by
  obtain ⟨-, settings, -, rfl⟩ := ofDir_eq_ok.mp hread
  obtain ⟨e, -, he⟩ := List.mem_filterMap.mp hid
  exact (commitOfText?_eq_some.mp he).1

/-! ## What is tracked afterwards -/

/-- Another commit is tracked, and nothing else has changed. -/
theorem exists_ofDir_track (hread : ofDir h dir = .ok r) (hne : r.tracked ≠ some id)
    (hid : id < h.commits.length) :
    ∃ r', ofDir h (save r { r with tracked := some id } dir) = .ok r' ∧ r'.tracked = some id := by
  have heq : save r { r with tracked := some id } dir =
      saveText (·.map fun id => commitText id ++ "\n") r.tracked (some id) trackedFile dir := by
    rw [save, saveText_self, saveText_self, saveBranches_self, saveCommits_self]
  have hwrites : Writes (· = trackedFile) dir (save r { r with tracked := some id } dir) :=
    heq ▸ writes_saveText (W := (· = trackedFile)) (fun _ => ⟨rfl, rfl⟩) dir
  have hsame {x : Location} (hx : Apart trackedFile x) := hwrites.same x fun _ hl => hl ▸ hx
  obtain ⟨r', hread', -, -, -, htracked⟩ := exists_ofDir_of_congr hread
    (hsame (x := headFile) (by decide)) (hsame (x := settingsFile) (by decide)) fun l hl hdir => by
      have hplaces : ∀ l ∈ [commitsDir, refsDir], ¬trackedFile <+: l := by decide
      exact hwrites.dirs l (fun _ hl' => hl' ▸ hplaces l hl) hdir
  refine ⟨r', hread', htracked.trans (commitAt?_commitText hid ?_)⟩
  rw [heq]
  exact at?_saveText hne rfl trackedFile dir

end Repository

end Scaffold
