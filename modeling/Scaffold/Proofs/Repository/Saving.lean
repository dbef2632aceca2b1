import Scaffold.Proofs.Repository.Pull
import Scaffold.Proofs.Repository.Reading

/-!
# Saving repositories

Saving writes what changed about a repository into its directory, and what is apart from that stays
as it is. So a repository that only got more commits is read back as it was (`exists_ofDir_of_like`),
and one whose branch has moved is read back with the branch at its new commit and with what is
tracked then (`exists_ofDir_of_moved`). The files of branches stay in a proper tree.
-/

set_option linter.unusedSectionVars false

namespace Scaffold

open Scaffold.Path

namespace Repository

open Disk Node

variable {h : History} {dir dir' : Node} {r r' : Repository}

/-! ## What is read -/

theorem ofDir_eq_ok : ofDir h dir = .ok r ↔ isRepository dir = true ∧
    ∃ settings, settingsOf dir = .ok settings ∧
      r = { head := (textAt? dir headFile).bind (headOfText? h)
            branches := branchesOf h dir
            commits := commitsOf h dir
            origin := Entries.get? originKey settings
            tracked := commitAt? h dir trackedFile } := by
  unfold ofDir
  cases hrepo : isRepository dir with
  | false => exact iff_of_false nofun fun hn => absurd hn.1 Bool.false_ne_true
  | true =>
    cases settingsOf dir with
    | error f => exact iff_of_false nofun fun ⟨_, _, hn, _⟩ => by cases hn
    | ok settings =>
      constructor
      · intro hok
        exact ⟨rfl, settings, rfl, (Except.ok.inj hok).symm⟩
      · rintro ⟨-, settings', hsettings, rfl⟩
        rw [← Except.ok.inj hsettings]
        rfl

theorem isDir_at? {l : Location} : (dir.at? l).any Node.isDir = true ↔ dir.layout l = some .dir := by
  rw [Option.any_eq_true, layout_eq_some]
  simp only [isDir_eq_true, item_eq_dir]

/-- A directory is that of a repository as long as it has the head and the places for commits and
branches. -/
theorem isRepository_congr (hhead : dir'.at? headFile = dir.at? headFile)
    (hkeep : ∀ l ∈ [commitsDir, refsDir], dir.layout l = some .dir → dir'.layout l = some .dir)
    (hdir : isRepository dir = true) : isRepository dir' = true := by
  simp only [isRepository, Bool.and_eq_true, isDir_at?] at hdir ⊢
  obtain ⟨⟨hfile, hcommits⟩, hrefs⟩ := hdir
  exact ⟨⟨hhead ▸ hfile, hkeep _ (by simp) hcommits⟩, hkeep _ (by simp) hrefs⟩

theorem settingsOf_congr (hsettings : dir'.at? settingsFile = dir.at? settingsFile) :
    settingsOf dir' = settingsOf dir := by
  rw [settingsOf, settingsOf, textAt?, textAt?, hsettings]

/-- A directory with the same head, settings and places is read alike. -/
theorem exists_ofDir_of_congr (hread : ofDir h dir = .ok r)
    (hhead : dir'.at? headFile = dir.at? headFile)
    (hsettings : dir'.at? settingsFile = dir.at? settingsFile)
    (hkeep : ∀ l ∈ [commitsDir, refsDir], dir.layout l = some .dir → dir'.layout l = some .dir) :
    ∃ r', ofDir h dir' = .ok r' ∧ r'.head = r.head ∧ r'.origin = r.origin ∧
      r'.branches = branchesOf h dir' ∧ r'.tracked = commitAt? h dir' trackedFile := by
  obtain ⟨hrepo, settings, hs, rfl⟩ := ofDir_eq_ok.mp hread
  refine ⟨_, ofDir_eq_ok.mpr ⟨isRepository_congr hhead hkeep hrepo, settings, ?_, rfl⟩, ?_, rfl,
    rfl, rfl⟩
  · rw [settingsOf_congr hsettings, hs]
  · dsimp only
    rw [textAt?, textAt?, hhead]

/-- A directory reads alike when the history grows. -/
theorem exists_ofDir_of_prefix {h' : History} (hgrow : h.commits <+: h'.commits)
    (hdir : ProperBranches dir) (hread : ofDir h dir = .ok r) {branch : String}
    (hhead : r.head = some (.branch branch)) :
    ∃ r', ofDir h' dir = .ok r' ∧ r'.head = r.head ∧ r'.origin = r.origin ∧
      (∀ id, Entries.get? branch r.branches = some id →
        Entries.get? branch r'.branches = some id) ∧
      ∀ id, r.tracked = some id → r'.tracked = some id := by
  obtain ⟨hrepo, settings, hs, rfl⟩ := ofDir_eq_ok.mp hread
  refine ⟨_, ofDir_eq_ok.mpr ⟨hrepo, settings, hs, rfl⟩, ?_, rfl, fun id hid => ?_, fun id hid => ?_⟩
  · dsimp only at hhead ⊢
    obtain ⟨text, ht, hh⟩ := Option.bind_eq_some_iff.mp hhead
    rw [hhead, ht, Option.bind_some]
    unfold headOfText? at hh ⊢
    dsimp only at hh ⊢
    split at hh
    · exact hh
    · obtain ⟨id, -, hid⟩ := Option.map_eq_some_iff.mp hh
      cases hid
  · exact (get?_branchesOf hdir).mpr (commitAt?_mono hgrow ((get?_branchesOf hdir).mp hid))
  · exact commitAt?_mono hgrow hid

/-- Whether a repository, whose head has a name and is at a commit, is read from a directory as it
is, as far as later pulls go by it. -/
structure Restored (h : History) (name : String) (id : CommitId) (r : Repository) (dir : Node) :
    Prop where
  branches : ProperBranches dir
  named : r.namedHead? = some (name, id)
  read : ∃ r', ofDir h dir = .ok r' ∧ r'.head = r.head ∧ r'.origin = r.origin ∧
    r'.tracked = r.tracked ∧ r'.namedHead? = some (name, id)

/-! ## What is written -/

theorem layout_force_of_dir {new : Node} {l x : Location} (hx : ¬l <+: x)
    (hdir : dir.layout x = some .dir) : (force new l dir).layout x = some .dir := by
  rcases apart_or_prefix l x with hsep | hpre | hpre
  · rw [layout_force_of_apart new hsep, hdir]
  · exact (hx hpre).elim
  · exact layout_force_above hpre (fun heq => hx (heq ▸ List.prefix_rfl)) dir

variable {α : Type} [BEq α] [LawfulBEq α]

theorem saveText_self (text : α → Option String) (a : α) (l : Location) (dir : Node) :
    saveText text a a l dir = dir := if_pos (beq_self_eq_true a)

/-- What was written is there. -/
theorem at?_saveText {text : α → Option String} {old new : α} (hne : old ≠ new) {t : String}
    (ht : text new = some t) (l : Location) (dir : Node) :
    (saveText text old new l dir).at? l = some (textFile t) := by
  have hat := at?_force_append (textFile t) l dir []
  rw [List.append_nil, at?_nil] at hat
  unfold saveText
  rw [if_neg (by simpa using hne), ht]
  exact hat

/-! ## What writing leaves alone -/

/-- Whether something may be written at a location for the branches to stay proper. -/
def Suits (l : Location) : Prop :=
  Apart l branchesDir ∨ ∃ r, l = branchesDir ++ r ∧ ∀ name ∈ r, IsName name

/-- Whether a directory is another one in which something was written at some locations. -/
structure Writes (W : Location → Prop) (dir dir' : Node) : Prop where
  same : ∀ x, (∀ l, W l → Apart l x) → dir'.at? x = dir.at? x
  dirs : ∀ x, (∀ l, W l → ¬l <+: x) → dir.layout x = some .dir → dir'.layout x = some .dir
  branches : (∀ l, W l → Suits l) → ProperBranches dir → ProperBranches dir'
  /-- What is new was written, or is above what was written. -/
  inside : ∀ x, dir'.layout x ≠ none → dir.layout x ≠ none ∨ ∃ l, W l ∧ x <+: l

variable {W : Location → Prop}

theorem Writes.refl (W : Location → Prop) (dir : Node) : Writes W dir dir :=
  ⟨fun _ _ => rfl, fun _ _ hx => hx, fun _ hdir => hdir, fun _ hx => Or.inl hx⟩

theorem Writes.trans {a b c : Node} (hab : Writes W a b) (hbc : Writes W b c) : Writes W a c where
  same x hx := (hbc.same x hx).trans (hab.same x hx)
  dirs x hx ha := hbc.dirs x hx (hab.dirs x hx ha)
  branches hW ha := hbc.branches hW (hab.branches hW ha)
  inside x hx := (hbc.inside x hx).elim (hab.inside x) Or.inr

theorem Writes.mono {W' : Location → Prop} (h : Writes W dir dir') (hW : ∀ l, W l → W' l) :
    Writes W' dir dir' where
  same x hx := h.same x fun l hl => hx l (hW l hl)
  dirs x hx := h.dirs x fun l hl => hx l (hW l hl)
  branches hW' := h.branches fun l hl => hW' l (hW l hl)
  inside x hx := (h.inside x hx).imp_right fun ⟨l, hl, hpre⟩ => ⟨l, hW l hl, hpre⟩

theorem Writes.foldl {γ : Type} {f : Node → γ → Node} : ∀ {cs : List γ},
    (∀ n, ∀ c ∈ cs, Writes W n (f n c)) → ∀ n : Node, Writes W n (cs.foldl f n)
  | [], _, n => .refl W n
  | c :: _, hf, n => (hf n c List.mem_cons_self).trans
      (Writes.foldl (fun n c hc => hf n c (List.mem_cons_of_mem _ hc)) (f n c))

theorem writes_force (text : String) {l : Location} (hl : W l) (dir : Node) :
    Writes W dir (force (textFile text) l dir) where
  same _ hx := at?_force_of_apart _ (hx l hl) dir
  dirs _ hx := layout_force_of_dir (hx l hl)
  branches hW hdir n hn := by
    rcases hW l hl with hsep | ⟨r, rfl, hnames⟩
    · rw [at?_force_of_apart _ hsep] at hn
      exact hdir n hn
    · rw [at?_force_below] at hn
      obtain rfl := Option.some.inj hn
      refine Proper.force (.file _ _) ?_ hnames
      cases hat : dir.at? branchesDir with
      | none => exact proper_emptyDir
      | some m => exact hdir m hat
  inside x hx := by
    obtain ⟨i, hi⟩ := Option.ne_none_iff_exists'.mp hx
    have hgains := gains_force (textFile text) (l := l) (P := fun x _ => ∃ l, W l ∧ x <+: l) dir
      (fun l' hpre _ => ⟨l, hl, hpre⟩) fun r i hr => by
        obtain ⟨rfl, -⟩ := eq_nil_of_layout rfl hr
        exact ⟨l, hl, by rw [List.append_nil]⟩
    exact (hgains x i hi).imp_left fun hold => by
      rw [hold]
      exact Option.some_ne_none i

/-- A text is written at its location, if it changes and is there to be written. -/
theorem writes_saveText {text : α → Option String} {old new : α} {l : Location}
    (hl : old ≠ new → W l ∧ (text new).isSome = true) (dir : Node) :
    Writes W dir (saveText text old new l dir) := by
  unfold saveText
  split
  · exact .refl W dir
  · rename_i hne
    obtain ⟨hw, hsome⟩ := hl (by simpa using hne)
    obtain ⟨t, ht⟩ := Option.isSome_iff_exists.mp hsome
    rw [ht]
    exact writes_force t hw dir

theorem writes_saveCommits (hW : ∀ id, W (commitsDir ++ [commitText id])) (old new : List CommitId)
    (dir : Node) : Writes W dir (saveCommits old new dir) := by
  refine Writes.foldl (fun n id _ => ?_) dir
  split
  · exact .refl W n
  · exact writes_force "" (hW id) n

/-- One branch is written when one has moved. -/
theorem writes_saveBranches {branch : String} (hW : W (branchesDir ++ Snapshot.locationOf branch))
    (id : CommitId) (branches : Entries CommitId) (dir : Node) :
    Writes W dir (saveBranches branches (Entries.insert branch id branches) dir) := by
  refine Writes.foldl (fun n name _ => writes_saveText (fun hne => ?_) n) dir
  rw [Entries.get?_insert] at hne ⊢
  split at hne
  · rename_i hname
    rw [if_pos hname]
    exact ⟨hname ▸ hW, rfl⟩
  · exact absurd rfl hne

/-- A branch that has moved is at its new commit. -/
theorem at?_saveBranches {branch : String} {id : CommitId} {branches : Entries CommitId}
    (hmem : branch ∈ branches.map Prod.fst) (hne : Entries.get? branch branches ≠ some id)
    (dir : Node) :
    (saveBranches branches (Entries.insert branch id branches) dir).at?
      (branchesDir ++ Snapshot.locationOf branch) = some (textFile (commitText id ++ "\n")) := by
  have hget : Entries.get? branch (Entries.insert branch id branches) = some id := by
    rw [Entries.get?_insert, if_pos rfl]
  -- The file is as it should be from the first time that the branch is come to.
  obtain ⟨before, after, hnames⟩ := List.append_of_mem
    (List.mem_map.mpr ((List.mem_map.mp hmem).imp fun e he =>
      ⟨List.mem_append_left (Entries.insert branch id branches) he.1, he.2⟩))
  rw [saveBranches, hnames, List.foldl_append, List.foldl_cons]
  refine List.foldlRecOn after _ (motive := fun n : Node =>
    n.at? (branchesDir ++ Snapshot.locationOf branch) = some (textFile (commitText id ++ "\n")))
    ?_ fun n hn name _ => ?_
  · exact at?_saveText (by rwa [hget]) (by rw [hget]; rfl) _ _
  · by_cases hname : name = branch
    · subst hname
      exact at?_saveText (by rwa [hget]) (by rw [hget]; rfl) _ n
    · rw [Entries.get?_insert, if_neg (Ne.symm hname), saveText_self]
      exact hn

/-! ## What is read after saving -/

theorem saveBranches_self (branches : Entries CommitId) (dir : Node) :
    saveBranches branches branches dir = dir := by
  refine List.foldlRecOn _ _ (motive := fun n => n = dir) rfl fun n hn name _ => ?_
  rw [saveText_self, hn]

theorem saveCommits_self (commits : List CommitId) (dir : Node) :
    saveCommits commits commits dir = dir := by
  refine List.foldlRecOn _ _ (motive := fun n => n = dir) rfl fun n hn id hid => ?_
  rw [if_pos (List.contains_iff_mem.mpr hid), hn]

theorem save_of_like (hlike : r.Like r') (dir : Node) :
    save r r' dir = saveCommits r.commits r'.commits dir := by
  rw [save, hlike.head, hlike.origin, hlike.tracked, hlike.branches, saveText_self, saveText_self,
    saveText_self, saveBranches_self]

theorem save_of_moved {branch : String} {id : CommitId} (hmoved : Moved branch id r r')
    (dir : Node) :
    save r r' dir = saveText (·.map fun id => commitText id ++ "\n") r.tracked r'.tracked trackedFile
      (saveBranches r.branches (Entries.insert branch id r.branches)
        (saveCommits r.commits r'.commits dir)) := by
  rw [save, hmoved.head, hmoved.origin, hmoved.branches, saveText_self, saveText_self]

/-- Where more commits are written. -/
def IsCommitFile (l : Location) : Prop := ∃ id, l = commitsDir ++ [commitText id]

theorem apart_commitFile {x : Location} (hx : Apart commitsDir x) (l : Location)
    (hl : IsCommitFile l) : Apart l x := by
  obtain ⟨id, rfl⟩ := hl
  exact hx.append_left _

theorem suits_commitFile (l : Location) (hl : IsCommitFile l) : Suits l :=
  Or.inl (apart_commitFile (by decide) l hl)

/-- The places that make a directory that of a repository are at its top. -/
theorem not_prefix_place {l x : Location} (hl : 1 < l.length) (hx : x ∈ [commitsDir, refsDir]) :
    ¬l <+: x := by
  intro hpre
  have hlen := hpre.length_le
  simp only [List.mem_cons, List.not_mem_nil, or_false] at hx
  rcases hx with rfl | rfl
  · rw [commitsDir, List.length_singleton] at hlen
    omega
  · rw [refsDir, List.length_singleton] at hlen
    omega

/-- A repository that only holds more commits is read back as it was. -/
theorem exists_ofDir_of_like (hdir : ProperBranches dir) (hread : ofDir h dir = .ok r)
    (hlike : r.Like r') :
    ProperBranches (save r r' dir) ∧ ∃ r'', ofDir h (save r r' dir) = .ok r'' ∧ r.Like r'' := by
  rw [save_of_like hlike]
  have hwrites : Writes IsCommitFile dir (saveCommits r.commits r'.commits dir) :=
    writes_saveCommits (fun id => ⟨id, rfl⟩) _ _ dir
  have hsame {x : Location} (hx : Apart commitsDir x) := hwrites.same x (apart_commitFile hx)
  refine ⟨hwrites.branches suits_commitFile hdir, ?_⟩
  obtain ⟨r'', hread', hhead, horigin, hbranches, htracked⟩ := exists_ofDir_of_congr hread
    (hsame (x := headFile) (by decide)) (hsame (x := settingsFile) (by decide)) fun l hl hldir => by
      refine hwrites.dirs l ?_ hldir
      rintro _ ⟨id, rfl⟩
      exact not_prefix_place (by simp [commitsDir]) hl
  obtain ⟨-, settings, -, rfl⟩ := ofDir_eq_ok.mp hread
  refine ⟨r'', hread', hhead, ?_, horigin, ?_⟩
  · rw [hbranches, branchesOf, branchesOf, hsame (x := branchesDir) (by decide)]
  · rw [htracked]
    exact commitAt?_congr h (hsame (x := trackedFile) (by decide))

/-- What is tracked is read back from what is written about it. -/
theorem commitAt?_saveTracked {tracked tracked' : Option CommitId} {tip : CommitId}
    (htip : tip < h.commits.length) (htracked : tracked' = tracked ∨ tracked' = some tip)
    (hold : commitAt? h dir trackedFile = tracked) :
    commitAt? h (saveText (·.map fun id => commitText id ++ "\n") tracked tracked' trackedFile dir)
      trackedFile = tracked' := by
  by_cases heq : tracked = tracked'
  · rw [heq, saveText_self, hold, heq]
  · obtain rfl := htracked.resolve_left fun hback => heq hback.symm
    exact commitAt?_commitText htip (at?_saveText heq rfl trackedFile dir)

/-- A repository with a branch that has moved is read back with the branch at its new commit. -/
theorem exists_ofDir_of_moved {branch : String} {ours tip : CommitId} (hdir : ProperBranches dir)
    (hread : ofDir h dir = .ok r) (hours : Entries.get? branch r.branches = some ours)
    (hne : ours ≠ tip) (htip : tip < h.commits.length) (hmoved : Moved branch tip r r')
    (htracked : r'.tracked = r.tracked ∨ r'.tracked = some tip) :
    ProperBranches (save r r' dir) ∧ ∃ r'', ofDir h (save r r' dir) = .ok r'' ∧ r''.head = r.head ∧
      r''.origin = r.origin ∧ Entries.get? branch r''.branches = some tip ∧
      r''.tracked = r'.tracked := by
  rw [save_of_moved hmoved]
  -- Three things are written one after the other : commits, the branch, and what is tracked.
  generalize hcommits : saveCommits r.commits r'.commits dir = dir₁
  generalize hbranches : saveBranches r.branches (Entries.insert branch tip r.branches) dir₁ = dir₂
  generalize hindex : saveText (·.map fun id => commitText id ++ "\n") r.tracked r'.tracked
    trackedFile dir₂ = dir₃
  have hwrites₁ : Writes IsCommitFile dir dir₁ :=
    hcommits ▸ writes_saveCommits (fun id => ⟨id, rfl⟩) _ _ dir
  have hwrites₂ : Writes (· = branchesDir ++ Snapshot.locationOf branch) dir₁ dir₂ :=
    hbranches ▸ writes_saveBranches
      (W := (· = branchesDir ++ Snapshot.locationOf branch)) rfl tip r.branches dir₁
  have hwrites₃ : Writes (· = trackedFile) dir₂ dir₃ := hindex ▸ writes_saveText (fun hne' => by
    rcases htracked with heq | heq
    · exact (hne' heq.symm).elim
    · rw [heq]
      exact ⟨rfl, rfl⟩) dir₂
  have hsame {x : Location} (hc : Apart commitsDir x) (hb : Apart branchesDir x)
      (hi : Apart trackedFile x) : dir₃.at? x = dir.at? x := by
    rw [hwrites₃.same x fun _ hl => hl ▸ hi, hwrites₂.same x fun _ hl => hl ▸ hb.append_left _,
      hwrites₁.same x (apart_commitFile hc)]
  have hsuits : Suits (branchesDir ++ Snapshot.locationOf branch) := by
    obtain ⟨-, settings, -, rfl⟩ := ofDir_eq_ok.mp hread
    exact Or.inr ⟨_, rfl, isName_of_get?_branchesOf hdir hours⟩
  have hproper : ProperBranches dir₃ :=
    hwrites₃.branches (fun l hl => hl ▸ Or.inl (by decide)) <|
      hwrites₂.branches (fun l hl => hl ▸ hsuits) <| hwrites₁.branches suits_commitFile hdir
  refine ⟨hproper, ?_⟩
  obtain ⟨r'', hread', hhead, horigin, hbranches', htracked'⟩ := exists_ofDir_of_congr hread
    (hsame (x := headFile) (by decide) (by decide) (by decide))
    (hsame (x := settingsFile) (by decide) (by decide) (by decide)) fun l hl hldir => by
      refine hwrites₃.dirs l ?_ <| hwrites₂.dirs l ?_ <| hwrites₁.dirs l ?_ hldir
      · rintro _ rfl hpre
        have hshort : l = commitsDir ∨ l = refsDir := by simpa using hl
        rcases hshort with rfl | rfl <;> exact absurd hpre (by decide)
      · rintro _ rfl
        exact not_prefix_place (by simp [branchesDir]) hl
      · rintro _ ⟨id, rfl⟩
        exact not_prefix_place (by simp [commitsDir]) hl
  refine ⟨r'', hread', hhead, horigin, ?_, ?_⟩
  · rw [hbranches', get?_branchesOf hproper]
    refine commitAt?_commitText htip ?_
    have hsep : Apart trackedFile (branchesDir ++ Snapshot.locationOf branch) :=
      Apart.append_right (by decide) _
    have hmem : branch ∈ r.branches.map Prod.fst :=
      List.mem_map.mpr ⟨_, Entries.mem_of_get? hours, rfl⟩
    rw [hwrites₃.same _ fun _ hl => hl ▸ hsep, ← hbranches]
    exact at?_saveBranches hmem (fun heq => hne (Option.some.inj (hours.symm.trans heq))) dir₁
  · rw [htracked', ← hindex]
    refine commitAt?_saveTracked htip htracked ?_
    obtain ⟨-, settings, -, rfl⟩ := ofDir_eq_ok.mp hread
    refine commitAt?_congr h ?_
    rw [hwrites₂.same trackedFile fun _ hl => hl ▸ Apart.append_left (by decide) _,
      hwrites₁.same trackedFile (apart_commitFile (by decide))]

end Repository

end Scaffold
