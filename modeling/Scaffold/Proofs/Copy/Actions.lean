import Scaffold.Copy
import Scaffold.Proofs.Disk.Changes
import Scaffold.Proofs.Disk.Shape

/-!
# Copying step by step

How the actions of a copy are made of smaller ones, and what copying one file does, whether it
succeeds or not. A copy looks at the shape of the disk alone to find its way, so it does to the
shape of a disk what it does to the disk (`blind_copyTree`), and so does a pass over copy rules
(`Template.copy_shape`).
-/

namespace Scaffold

open Scaffold.Path

namespace Disk

namespace Action

/-! ## One file -/

theorem perform_copyFile (source target : Path) (d : Disk) :
    (copyFile source target).perform d =
      match d.stat source with
      | .error f => (.error f, d)
      | .ok (l, .file bytes executable) =>
        match d.resolve true target with
        | .error f => (.error f, d)
        | .ok found =>
          if found.node.any (!·.isFile) then (.error .isDirectory, d)
          else
            let copied := if found.location = l then ByteArray.empty else bytes
            (.ok (), { d with
              top := d.top.put (some (.file copied executable)) found.location })
      | .ok _ => (.error .notFile, d) := by
  unfold copyFile
  rw [perform_bind]
  have hl : (look (·.stat source)).perform d = (d.stat source, d) := rfl
  rw [hl]
  cases d.stat source with
  | error f => rfl
  | ok r =>
    obtain ⟨l, n⟩ := r
    cases n with
    | dir entries => rfl
    | link target => rfl
    | file bytes executable =>
      dsimp only
      rw [perform_bind]
      have hr : (look (·.resolve true target)).perform d = (d.resolve true target, d) := rfl
      rw [hr]
      cases d.resolve true target with
      | error f => rfl
      | ok found =>
        dsimp only
        cases found.node.any (!·.isFile) <;> rfl

/-- A copied file has the bytes of the other one, unless it is that file itself, and replaces
nothing but a file. -/
theorem copyFile_eq_ok {source target : Path} {d d' : Disk}
    (h : (copyFile source target).perform d = (.ok (), d')) :
    ∃ l bytes executable found, d.stat source = .ok (l, .file bytes executable) ∧
      d.resolve true target = .ok found ∧ found.node.any (!·.isFile) = false ∧
      d' = { d with
        top := d.top.put (some (.file (if found.location = l then ByteArray.empty else bytes)
          executable)) found.location } := by
  rw [perform_copyFile] at h
  split at h
  · cases (Prod.mk.inj h).1
  · rename_i l bytes executable hstat
    split at h
    · cases (Prod.mk.inj h).1
    · rename_i found hfound
      split at h
      · cases (Prod.mk.inj h).1
      · rename_i hfile
        exact ⟨l, bytes, executable, found, hstat, hfound, Bool.eq_false_of_not_eq_true hfile,
          (Prod.mk.inj h).2.symm⟩
  · cases (Prod.mk.inj h).1

/-- A file that cannot be copied changes nothing. -/
theorem copyFile_eq_error {source target : Path} {d d' : Disk} {f : Fault}
    (h : (copyFile source target).perform d = (.error f, d')) : d' = d := by
  rw [perform_copyFile] at h
  split at h
  · exact (Prod.mk.inj h).2.symm
  · split at h
    · exact (Prod.mk.inj h).2.symm
    · split at h
      · exact (Prod.mk.inj h).2.symm
      · cases (Prod.mk.inj h).1
  · exact (Prod.mk.inj h).2.symm

/-! ## Larger actions -/

/-- A file is copied after the directories above it are made, if there are any. -/
theorem placeFile_eq (source target : Path) :
    placeFile source target =
      target.parent?.elim (copyFile source target) fun above =>
        makeDirs above >>= fun _ => copyFile source target := by
  unfold placeFile
  cases target.parent? <;> rfl

/-- A file is placed by making the directories above it and then copying it. -/
theorem placeFile_joinAll (p root : Path) (above : List String) {n : String} (hn : IsName n) :
    placeFile p (root.joinAll (above ++ [n])) =
      makeDirs (ofParts (root.joinAll above).parts) >>= fun _ =>
        copyFile p ((root.joinAll above).join n) := by
  have hparent : ((root.joinAll above).join n).parent? =
      some (ofParts (root.joinAll above).parts) :=
    parent?_eq (parts_join (root.joinAll above) (c := .name n) hn) hn
  rw [joinAll_concat, placeFile_eq, hparent, Option.elim_some]

/-- A file is copied after the directories above it are made, if there are any. -/
theorem placeFile_eq_ok {source target : Path} {d d' : Disk}
    (h : (placeFile source target).perform d = (.ok (), d')) :
    ∃ d₁, (∀ above, target.parent? = some above → (makeDirs above).perform d = (.ok (), d₁)) ∧
      (target.parent? = none → d₁ = d) ∧ (copyFile source target).perform d₁ = (.ok (), d') := by
  unfold placeFile at h
  cases hp : target.parent? with
  | none =>
    rw [hp] at h
    exact ⟨d, by simp, fun _ => rfl, h⟩
  | some above =>
    rw [hp] at h
    obtain ⟨_, d₁, hmade, h⟩ := bind_eq_ok h
    refine ⟨d₁, fun p hp' => ?_, by simp, h⟩
    rw [← Option.some.inj hp']
    exact hmade

/-- What a walk came by is copied one after the other. -/
theorem copyVisits_cons (source target : Path) (v : Visit) (rest : List (Except Fault Visit)) :
    copyVisits source target (.ok v :: rest) =
      (if v.isDir then makeDirs (target.joinAll v.names)
        else placeFile (source.joinAll v.names) (target.joinAll v.names)) >>= fun _ =>
          copyVisits source target rest := by
  rw [copyVisits]
  cases hv : v.isDir <;> rfl

/-- What a walk came by is copied one after the other. -/
theorem copyVisits_eq_ok {source target : Path} {v : Visit} {rest : List (Except Fault Visit)}
    {d d' : Disk} (h : (copyVisits source target (.ok v :: rest)).perform d = (.ok (), d')) :
    ∃ d₁, (if v.isDir then makeDirs (target.joinAll v.names)
        else placeFile (source.joinAll v.names) (target.joinAll v.names)).perform d =
          (.ok (), d₁) ∧
      (copyVisits source target rest).perform d₁ = (.ok (), d') := by
  rw [copyVisits] at h
  cases hv : v.isDir with
  | true =>
    simp only [hv, if_true] at h
    obtain ⟨_, d₁, hfirst, hrest⟩ := bind_eq_ok h
    exact ⟨d₁, hfirst, hrest⟩
  | false =>
    simp only [hv, Bool.false_eq_true, if_false] at h
    obtain ⟨_, d₁, hfirst, hrest⟩ := bind_eq_ok h
    exact ⟨d₁, hfirst, hrest⟩

/-- What stands at the source decides how it is copied. -/
theorem perform_copyTree (source target : Path) (d : Disk) :
    (copyTree source target).perform d =
      match d.stat source with
      | .error f => (.error f, d)
      | .ok (_, n) =>
        (if n.isDir then copyVisits source target (walkFrom d source)
          else placeFile source target).perform d := by
  unfold copyTree
  rw [perform_bind]
  have hl : (look (·.stat source)).perform d = (d.stat source, d) := rfl
  rw [hl]
  cases d.stat source with
  | error f => rfl
  | ok r =>
    dsimp only
    split <;> rfl

/-! ## On the shape of a disk -/

theorem blind_copyFile (source target : Path) : Blind (copyFile source target) := by
  intro d
  rw [perform_copyFile, perform_copyFile, stat_shape, resolve_shape]
  cases d.stat source with
  | error f => rfl
  | ok r =>
    obtain ⟨l, n⟩ := r
    cases n with
    | dir entries => simp only [Except.map, Node.shape]
    | link target => simp only [Except.map, Node.shape]
    | file bytes executable =>
      simp only [Except.map, Node.shape]
      cases d.resolve true target with
      | error f => rfl
      | ok found =>
        have hany : (found.node.map Node.shape).any (!·.isFile) = found.node.any (!·.isFile) := by
          simp [Option.any_map, Node.isFile_shape]
        simp only [Found.shape, hany]
        cases found.node.any (!·.isFile) with
        | true => rfl
        | false =>
          by_cases hl : found.location = l
          · simp [hl, shape, ← Node.put_shape, Node.shape]
          · simp [hl, shape, ← Node.put_shape, Node.shape]

theorem blind_placeFile (source target : Path) : Blind (placeFile source target) := by
  rw [placeFile_eq]
  cases target.parent? with
  | none => exact blind_copyFile source target
  | some above => exact (blind_makeDirs above).bind (blind_copyFile source target)

end Action

end Disk

open Disk

/-! ## Rules -/

/-- The paths of a rule are those that are not refused. -/
theorem CopyRule.containedJoin_of_paths {t : Template} {r : CopyRule} {source target : Path}
    (h : r.paths t = .ok (source, target)) :
    t.filesDir.containedJoin r.source = some source ∧
      t.project.containedJoin r.destination = some target := by
  unfold CopyRule.paths at h
  cases hs : t.filesDir.containedJoin r.source with
  | none =>
    rw [hs] at h
    cases h
  | some s =>
    cases hp : t.project.containedJoin r.destination with
    | none =>
      rw [hs, hp] at h
      cases h
    | some p =>
      rw [hs, hp] at h
      obtain ⟨rfl, rfl⟩ := Prod.mk.inj (Except.ok.inj h)
      exact ⟨rfl, rfl⟩

/-- A rule copies from below the files and to below the project. -/
theorem CopyRule.paths_eq_ok {t : Template} {r : CopyRule} {source target : Path}
    (h : r.paths t = .ok (source, target)) :
    source = t.filesDir.joinAll (namesOf r.source) ∧
      target = t.project.joinAll (namesOf r.destination) :=
  (CopyRule.containedJoin_of_paths h).imp eq_joinAll_of_containedJoin eq_joinAll_of_containedJoin

/-- A rule whose paths are refused does nothing. -/
theorem CopyRule.perform_run (t : Template) (r : CopyRule) (d : Disk) :
    (r.run t).perform d =
      match r.paths t with
      | .error f => (.error f, d)
      | .ok (source, target) => (Action.copyTree source target).perform d := by
  unfold CopyRule.run
  rw [Action.perform_bind]
  have hl : Action.perform (ExceptT.mk (return r.paths t)) d = (r.paths t, d) := rfl
  rw [hl]
  cases r.paths t <;> rfl

end Scaffold
