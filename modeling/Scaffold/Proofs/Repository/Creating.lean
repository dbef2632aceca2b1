import Scaffold.Proofs.Repository.Saving

/-!
# Repositories that are made

The directory of a repository that is made reads as that repository, as far as later pulls go by it
(`restored_create`). The head is read from the name of its branch, and the address that is fetched
from comes back from the quotes that it is written in (`exists_ofText_settingsText`).
-/

namespace Scaffold

open Scaffold.Path
open Disk Node

namespace Repository

/-! ## Settings -/

/-- What is written above the address that is fetched from. -/
theorem readAll_heading (fuel : Nat) (rest : List Char) :
    Settings.readAll (fuel + 7) [] [] ("[core]\n\tbare = false\n".toList ++
      ("[remote \"origin\"]\n\t".toList ++ rest)) =
      Settings.readAll fuel "remote.origin".toList
        [(String.ofList "core.bare".toList, String.ofList "false".toList)] rest := rfl

/-- The address is read as it is, whatever characters there are in it. -/
theorem readAll_url (fuel : Nat) (heading value : List Char) (settings : Entries String) :
    Settings.readAll (fuel + 2) heading settings
      ("url = ".toList ++ (Settings.quoted value ++ ['\n'])) =
      some (Entries.insert
        (String.ofList (if heading.isEmpty then "url".toList else heading ++ '.' :: "url".toList))
        (String.ofList value) settings) := by
  have hkey : Settings.readKey ("url = ".toList ++ (Settings.quoted value ++ ['\n'])) =
      (Settings.readValue false [] [] (Settings.quoted value ++ ['\n'])).map
        fun r => ("url".toList, r.1, r.2) := rfl
  rw [Settings.read_quoted, Option.map_some] at hkey
  have hstep : Settings.readAll (fuel + 2) heading settings
      ("url = ".toList ++ (Settings.quoted value ++ ['\n'])) =
      (Settings.readKey ("url = ".toList ++ (Settings.quoted value ++ ['\n']))).bind
        fun r => Settings.readAll (fuel + 1) heading
          (Entries.insert (String.ofList (if heading.isEmpty then r.1 else heading ++ '.' :: r.1))
            (String.ofList r.2.1) settings) r.2.2 := rfl
  rw [hstep, hkey]
  rfl

/-- The settings that are written say where to fetch from. -/
theorem exists_ofText_settingsText (origin : Option String) :
    ∃ settings, Settings.ofText (settingsText origin) = some settings ∧
      Entries.get? originKey settings = origin := by
  cases origin with
  | none => exact ⟨_, rfl, rfl⟩
  | some url =>
    have htext : (settingsText (some url)).toList = "[core]\n\tbare = false\n".toList ++
        ("[remote \"origin\"]\n\t".toList ++
          ("url = ".toList ++ (Settings.quoted url.toList ++ ['\n']))) := by
      have hlead : "[remote \"origin\"]\n\turl = ".toList =
          "[remote \"origin\"]\n\t".toList ++ "url = ".toList := by decide +kernel
      have hend : "\n".toList = ['\n'] := by decide +kernel
      have hsettings : settingsText (some url) = "[core]\n\tbare = false\n" ++
          ("[remote \"origin\"]\n\turl = " ++ String.ofList (Settings.quoted url.toList) ++ "\n") :=
        rfl
      simp only [hsettings, String.toList_append, String.toList_ofList, hlead, hend,
        List.append_assoc]
    have hlength : 8 ≤ (settingsText (some url)).toList.length := by
      rw [htext, List.length_append]
      exact le_trans (by decide +kernel) (Nat.le_add_right _ _)
    obtain ⟨fuel, hfuel⟩ := Nat.exists_eq_add_of_le' hlength
    have hread := (readAll_heading (fuel + 2) _).trans
      (readAll_url fuel "remote.origin".toList url.toList _)
    rw [← htext] at hread
    have hof : Settings.ofText (settingsText (some url)) =
        Settings.readAll (fuel + 2 + 7) [] [] (settingsText (some url)).toList := by
      rw [Settings.ofText, hfuel]
    refine ⟨_, hof.trans hread, ?_⟩
    rw [Entries.get?_insert, if_pos (by decide +kernel), String.ofList_toList]

/-! ## Heads -/

theorem without?_append (lead text : String) : without? lead (lead ++ text) = some text := by
  rw [without?, String.toList_append, if_pos (by simp), List.drop_left, String.ofList_toList]

/-- The head is read from what was written for its branch. -/
theorem headOfText?_headText (h : History) {branch : String} (hb : '\n' ∉ branch.toList) :
    headOfText? h (headText (.branch branch)) = some (.branch branch) := by
  have hline : firstLine (headText (.branch branch)) = linkLead ++ (branchLead ++ branch) := by
    rw [headText, firstLine_append, String.append_assoc]
    have hleads : '\n' ∉ linkLead.toList ∧ '\n' ∉ branchLead.toList := by decide +kernel
    simp [hleads, hb]
  unfold headOfText?
  dsimp only
  rw [hline, without?_append]
  dsimp only
  rw [without?_append]
  rfl

/-- The directory of a repository before anything but its settings is written. -/
def bareDir (origin : Option String) : Node :=
  force (textFile (settingsText origin)) settingsFile emptyDir

/-- Where something is written for a repository with one branch. -/
inductive IsFileOf (branch : String) : Location → Prop
  | head : IsFileOf branch headFile
  | tracked : IsFileOf branch trackedFile
  | branch : IsFileOf branch (branchesDir ++ Snapshot.locationOf branch)
  | commit (id : CommitId) : IsFileOf branch (commitsDir ++ [commitText id])

variable {h : History} {r : Repository} {branch : String} {id : CommitId}

theorem create_eq (hhead : r.head = some (.branch branch)) (hbranches : r.branches = [(branch, id)])
    (htracked : r.tracked = some id) :
    create r = force (textFile (headText (.branch branch))) headFile
      (force (textFile (commitText id ++ "\n")) trackedFile
        (force (textFile (commitText id ++ "\n")) (branchesDir ++ Snapshot.locationOf branch)
          (saveCommits [] r.commits (bareDir r.origin)))) := by
  have hget : Entries.get? branch [(branch, id)] = some id := if_pos rfl
  have hsaved (dir : Node) : saveBranches [] [(branch, id)] dir =
      force (textFile (commitText id ++ "\n")) (branchesDir ++ Snapshot.locationOf branch) dir := by
    rw [saveBranches, List.nil_append, List.map_singleton, List.foldl_cons, List.foldl_nil, hget]
    rfl
  rw [create, save, hhead, htracked, hbranches, saveText_self, hsaved]
  rfl

theorem writes_create (hhead : r.head = some (.branch branch))
    (hbranches : r.branches = [(branch, id)]) (htracked : r.tracked = some id) :
    Writes (IsFileOf branch) (bareDir r.origin) (create r) := by
  rw [create_eq hhead hbranches htracked]
  exact (writes_saveCommits (fun id => .commit id) [] r.commits _).trans <|
    (writes_force _ .branch _).trans <| (writes_force _ .tracked _).trans (writes_force _ .head _)

theorem properBranches_bareDir (origin : Option String) : ProperBranches (bareDir origin) := by
  intro n hn
  have hempty : emptyDir.at? branchesDir = some (.dir []) := at?_force_append _ branchesDir _ []
  rw [bareDir, at?_force_of_apart _ (by decide), hempty] at hn
  exact Option.some.inj hn ▸ proper_emptyDir

theorem suits_of_isFileOf (hnames : ∀ name ∈ Snapshot.locationOf branch, IsName name)
    (l : Location) (hl : IsFileOf branch l) : Suits l := by
  cases hl with
  | head | tracked => exact Or.inl (by decide)
  | branch => exact Or.inr ⟨_, rfl, hnames⟩
  | commit id => exact suits_commitFile _ ⟨id, rfl⟩

/-- The places for commits and branches are there, whatever is written. -/
theorem layout_bareDir (origin : Option String) {l : Location} (hl : l ∈ [commitsDir, refsDir]) :
    (bareDir origin).layout l = some .dir := by
  have hempty : ∀ l ∈ [commitsDir, refsDir], emptyDir.layout l = some .dir := by decide +kernel
  have hconfig : ∀ l ∈ [commitsDir, refsDir], ¬settingsFile <+: l := by decide
  exact layout_force_of_dir (hconfig l hl) (hempty l hl)

theorem not_prefix_of_isFileOf {l x : Location} (hl : IsFileOf branch l)
    (hx : x ∈ [commitsDir, refsDir]) : ¬l <+: x := by
  have hlength : x.length = 1 := by
    revert x
    decide
  have hshort : ∀ l ∈ [headFile, trackedFile], ∀ x ∈ [commitsDir, refsDir], ¬l <+: x := by decide
  cases hl with
  | head => exact hshort _ (by simp) x hx
  | tracked => exact hshort _ (by simp) x hx
  | branch =>
    intro hpre
    have hle := hpre.length_le
    simp [hlength, branchesDir] at hle
  | commit id =>
    intro hpre
    have hle := hpre.length_le
    simp [hlength, commitsDir] at hle

theorem apart_settingsFile {l : Location} (hl : IsFileOf branch l) : Apart l settingsFile := by
  cases hl with
  | head | tracked => decide
  | branch => exact Apart.append_left (by decide) _
  | commit id => exact Apart.append_left (by decide) _

theorem at?_force_textFile (text : String) (l : Location) (dir : Node) :
    (force (textFile text) l dir).at? l = some (textFile text) := by
  have hat := at?_force_append (textFile text) l dir []
  rwa [List.append_nil, at?_nil] at hat

/-- A repository that is made is read with its head and with where to fetch from. -/
theorem exists_ofDir_of_writes {origin : Option String} {dir : Node}
    (hwrites : Writes (IsFileOf branch) (bareDir origin) dir)
    (hhead : dir.at? headFile = some (textFile (headText (.branch branch))))
    (hline : '\n' ∉ branch.toList) :
    ∃ r, ofDir h dir = .ok r ∧ r.head = some (.branch branch) ∧ r.origin = origin ∧
      r.branches = branchesOf h dir ∧ r.tracked = commitAt? h dir trackedFile := by
  have hsettingsAt : dir.at? settingsFile = some (textFile (settingsText origin)) := by
    rw [hwrites.same _ fun l hl => apart_settingsFile hl]
    exact at?_force_textFile _ _ _
  have hdirs {l : Location} (hl : l ∈ [commitsDir, refsDir]) : dir.layout l = some .dir :=
    hwrites.dirs l (fun l' hl' => not_prefix_of_isFileOf hl' hl) (layout_bareDir origin hl)
  obtain ⟨settings, hsettings, horigin⟩ := exists_ofText_settingsText origin
  have hrepo : isRepository dir = true := by
    simp only [isRepository, Bool.and_eq_true, isDir_at?]
    exact ⟨⟨by rw [hhead]; rfl, hdirs (by simp)⟩, hdirs (by simp)⟩
  have hsettingsOf : settingsOf dir = .ok settings := by
    rw [settingsOf, hsettingsAt, textAt?_textFile hsettingsAt, Option.bind_some, hsettings]
  have hread : (textAt? dir headFile).bind (headOfText? h) = some (.branch branch) := by
    rw [textAt?_textFile hhead, Option.bind_some, headOfText?_headText h hline]
  exact ⟨_, ofDir_eq_ok.mpr ⟨hrepo, settings, hsettingsOf, rfl⟩, hread, horigin, rfl, rfl⟩

/-- A repository that is made, with its head on a branch at a commit, is read as it is. -/
theorem restored_create (hhead : r.head = some (.branch branch))
    (hbranches : r.branches = [(branch, id)]) (htracked : r.tracked = some id)
    (hid : id < h.commits.length) (hline : '\n' ∉ branch.toList)
    (hnames : ∀ name ∈ Snapshot.locationOf branch, IsName name) :
    Restored h branch id r (create r) := by
  have hwrites := writes_create hhead hbranches htracked
  have hproper := hwrites.branches (suits_of_isFileOf hnames) (properBranches_bareDir r.origin)
  have hheadAt : (create r).at? headFile = some (textFile (headText (.branch branch))) := by
    rw [create_eq hhead hbranches htracked]
    exact at?_force_textFile _ _ _
  have htrackedAt : (create r).at? trackedFile = some (textFile (commitText id ++ "\n")) := by
    rw [create_eq hhead hbranches htracked, at?_force_of_apart _ (by decide)]
    exact at?_force_textFile _ _ _
  have hbranchAt : (create r).at? (branchesDir ++ Snapshot.locationOf branch) =
      some (textFile (commitText id ++ "\n")) := by
    rw [create_eq hhead hbranches htracked,
      at?_force_of_apart _ (Apart.append_right (by decide) _),
      at?_force_of_apart _ (Apart.append_right (by decide) _)]
    exact at?_force_textFile _ _ _
  obtain ⟨r', hread, hrhead, horigin, hrbranches, hrtracked⟩ :=
    exists_ofDir_of_writes (h := h) hwrites hheadAt hline
  refine ⟨hproper, ?_, r', hread, hrhead.trans hhead.symm, horigin, ?_, ?_⟩
  · rw [namedHead?_of_branch hhead, hbranches]
    exact congrArg _ (if_pos rfl)
  · rw [hrtracked, commitAt?_commitText hid htrackedAt, htracked]
  · rw [namedHead?_of_branch hrhead, hrbranches]
    exact congrArg _ ((get?_branchesOf hproper).mpr (commitAt?_commitText hid hbranchAt))

end Repository

end Scaffold
