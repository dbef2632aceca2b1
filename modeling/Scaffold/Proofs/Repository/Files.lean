import Mathlib.Data.List.Basic
import Scaffold.Proofs.Repository.WorkingTree
import Scaffold.Repository.Files

/-!
# What repositories keep in their directories

A repository writes files into its directory and makes directories in it. It never makes a link
there, the directory stays one, and apart from its head and its settings the files are plain, which
says that they read as settings without values (`exists_ofText_commitText`). `InDirectory` says so
of an item, and writing what changed (`gains_save`) brings nothing else, so a repository that is
made has nothing else (`inDirectory_create`).
-/

namespace Scaffold

namespace Repository

open Disk Node

/-! ## Plain files -/

theorem isKeyChar_digitChar {k : Nat} (h : k < 16) : Settings.isKeyChar k.digitChar = true := by
  decide +revert

theorem isKeyChar_of_mem_toDigits {c : Char} {n : Nat} (h : c ∈ Nat.toDigits 16 n) :
    Settings.isKeyChar c = true := by
  induction n using Nat.strongRecOn with
  | ind n ih =>
    rw [Nat.toDigits_eq_if (by decide)] at h
    split at h
    · rename_i hn
      rw [List.mem_singleton.mp h]
      exact isKeyChar_digitChar hn
    · rcases List.mem_append.mp h with h | h
      · exact ih (n / 16) (by omega) h
      · rw [List.mem_singleton.mp h]
        exact isKeyChar_digitChar (Nat.mod_lt n (by decide))

theorem toList_commitText (id : CommitId) : (commitText id).toList =
    ['c', '0', 'd', 'e'] ++ List.replicate (36 - (Nat.toDigits 16 id).length) '0' ++
      Nat.toDigits 16 id := by
  have hlead : "c0de".toList = ['c', '0', 'd', 'e'] := by decide +kernel
  rw [← hlead]
  exact String.toList_ofList

/-- The text that a commit goes by is a key. -/
theorem isKeyChar_of_mem_commitText {id : CommitId} :
    ∀ c ∈ (commitText id).toList, Settings.isKeyChar c = true := by
  intro c hc
  have hlead : ['c', '0', 'd', 'e'].all Settings.isKeyChar = true := by decide
  rw [toList_commitText] at hc
  rcases List.mem_append.mp hc with hc | hc
  · rcases List.mem_append.mp hc with hc | hc
    · exact List.all_eq_true.mp hlead c hc
    · rw [List.eq_of_mem_replicate hc]
      rfl
  · exact isKeyChar_of_mem_toDigits hc

/-- The text of a commit reads as a key without a value. -/
theorem exists_ofText_commitText (id : CommitId) : ∃ key,
    Settings.ofText (commitText id ++ "\n") = some [(String.ofList ('c' :: key), "")] := by
  obtain ⟨digits, hdigits⟩ : ∃ digits, (commitText id).toList = 'c' :: digits :=
    ⟨_, toList_commitText id⟩
  have hkey : ∀ c ∈ (commitText id).toList, Settings.isKeyChar c = true :=
    isKeyChar_of_mem_commitText
  rw [hdigits] at hkey
  have hread : Settings.readKey ('c' :: digits ++ ['\n']) =
      some ('c' :: digits.map (·.toLower), [], []) := by
    rw [Settings.readKey, List.takeWhile_append_of_pos hkey, List.dropWhile_append_of_pos hkey,
      show ['\n'].takeWhile Settings.isKeyChar = [] by decide, List.append_nil,
      show (['\n'].dropWhile Settings.isKeyChar).dropWhile Settings.isBlank = ['\n'] by decide]
    rfl
  have hchars : (commitText id ++ "\n").toList = 'c' :: digits ++ ['\n'] := by
    rw [String.toList_append, hdigits]
    rfl
  refine ⟨digits.map (·.toLower), ?_⟩
  rw [Settings.ofText, hchars]
  dsimp only [List.cons_append, List.length_cons]
  rw [Settings.readAll]
  · dsimp only
    rw [← List.cons_append, hread]
    rfl
  · decide

/-- Whether a file has no text, or the text that a commit goes by. -/
def IsPlain (bytes : ByteArray) : Prop :=
  bytes = "".toUTF8 ∨ ∃ id, bytes = (commitText id ++ "\n").toUTF8

/-! ## What is in the directory -/

/-- What may be in the directory of a repository : a directory at the top, and below it no links
and no files but plain ones and those that are named as the head or the settings are. -/
structure InDirectory (l : Location) (i : Item) : Prop where
  noLink : ∀ target, i ≠ .link target
  top : l = [] → i = .dir
  plain : ∀ above name bytes executable, l = above ++ [name] → i = .file bytes executable →
    [name] = headFile ∨ [name] = settingsFile ∨ IsPlain bytes

theorem inDirectory_dir (l : Location) : InDirectory l .dir := ⟨nofun, fun _ => rfl, nofun⟩

/-- What may be in a directory of a repository may be in one that is further below. -/
theorem InDirectory.below {r : Location} {i : Item} (h : InDirectory r i) (l : Location) :
    InDirectory (l ++ r) i where
  noLink := h.noLink
  top hl := h.top (List.append_eq_nil_iff.mp hl).2
  plain above name bytes executable hl hi := by
    rcases List.eq_nil_or_concat' r with rfl | ⟨r, last, rfl⟩
    · rw [h.top rfl] at hi
      cases hi
    · rw [← List.append_assoc] at hl
      obtain ⟨-, hname⟩ := List.append_inj' hl rfl
      exact hname ▸ h.plain r last bytes executable rfl hi

/-- A text that is written somewhere below the top. -/
theorem gains_force_textFile {l : Location} (hl : l ≠ []) {text : String}
    (htext : l = headFile ∨ l = settingsFile ∨ IsPlain text.toUTF8) (n : Node) :
    n.Gains InDirectory (force (textFile text) l n) := by
  refine gains_force _ n (fun _ _ _ => inDirectory_dir _) fun r i hr => ?_
  obtain ⟨rfl, rfl⟩ := eq_nil_of_layout rfl hr
  rw [List.append_nil]
  refine ⟨nofun, fun h => (hl h).elim, fun above name bytes executable hname hi => ?_⟩
  obtain ⟨rfl, -⟩ := Item.file.inj hi
  have hlast {file : String} (h : [] ++ [file] = above ++ [name]) : [name] = [file] :=
    (List.append_inj' h rfl).2.symm
  rcases htext with rfl | rfl | htext
  · exact Or.inl (hlast hname)
  · exact Or.inr (Or.inl (hlast hname))
  · exact Or.inr (Or.inr htext)

theorem gains_saveText {α : Type} [BEq α] {text : α → Option String} {old new : α} {l : Location}
    (hl : l ≠ [])
    (htext : ∀ t, text new = some t → l = headFile ∨ l = settingsFile ∨ IsPlain t.toUTF8)
    (n : Node) : n.Gains InDirectory (saveText text old new l n) := by
  unfold saveText
  split
  · exact .refl n
  · split
    · rename_i t ht
      exact gains_force_textFile hl (htext t ht) n
    · exact gains_put none n (by simp)

/-- A commit that is written in a file. -/
theorem isPlain_of_map {id : Option CommitId} {t : String}
    (h : id.map (fun id => commitText id ++ "\n") = some t) : IsPlain t.toUTF8 := by
  obtain ⟨id, -, rfl⟩ := Option.map_eq_some_iff.mp h
  exact Or.inr ⟨id, rfl⟩

theorem gains_saveBranches (old new : Entries CommitId) (n : Node) :
    n.Gains InDirectory (saveBranches old new n) :=
  gains_foldl (fun m name => gains_saveText (List.append_ne_nil_of_left_ne_nil (by decide) _)
    (fun _ ht => Or.inr (Or.inr (isPlain_of_map ht))) m) _ n

theorem gains_saveCommits (old new : List CommitId) (n : Node) :
    n.Gains InDirectory (saveCommits old new n) := by
  refine gains_foldl (fun m id => ?_) new n
  split
  · exact .refl m
  · exact gains_force_textFile (List.append_ne_nil_of_left_ne_nil (by decide) _)
      (Or.inr (Or.inr (Or.inl rfl))) m

/-- Writing what changed about a repository brings nothing else. -/
theorem gains_save (old new : Repository) (n : Node) : n.Gains InDirectory (save old new n) :=
  (gains_saveCommits _ _ n).trans <| (gains_saveBranches _ _ _).trans <|
    (gains_saveText (by decide) (fun _ ht => Or.inr (Or.inr (isPlain_of_map ht))) _).trans <|
      (gains_saveText (by decide) (fun _ _ => Or.inr (Or.inl rfl)) _).trans <|
        gains_saveText (by decide) (fun _ _ => Or.inl rfl) _

theorem gains_force_dir (l : Location) (n : Node) : n.Gains InDirectory (force (.dir []) l n) := by
  refine gains_force _ n (fun _ _ _ => inDirectory_dir _) fun r i hr => ?_
  obtain ⟨-, rfl⟩ := eq_nil_of_layout rfl hr
  exact inDirectory_dir _

/-- A repository that is made has nothing else. -/
theorem inDirectory_create (r : Repository) {l : Location} {i : Item}
    (h : (create r).layout l = some i) : InDirectory l i := by
  have hgains : (Node.dir []).Gains InDirectory (create r) :=
    (gains_force_dir commitsDir _).trans <| (gains_force_dir branchesDir _).trans <|
      (gains_force_textFile (by decide) (Or.inr (Or.inl rfl)) _).trans (gains_save _ _ _)
  rcases hgains l i h with hold | hin
  · obtain ⟨-, rfl⟩ := eq_nil_of_layout rfl hold
    exact inDirectory_dir l
  · exact hin

end Repository

end Scaffold
