import Scaffold.Proofs.Copy.Actions

/-!
# What a copy rule keeps

A copy rule makes directories and copies files, and nothing else. So what these actions keep
the rule keeps, of one disk (`CopyRule.run_invariant`) or of two disks of one shape, on which it
does the same step by step (`CopyRule.run_keeps`). The directories are at or above names below
the project, and the files are what names below the source of the rule led to at the start.
-/

namespace Scaffold

open Scaffold.Path Disk

namespace Disk.Action

/-- Whether an action keeps what holds of two disks when it is performed on both. -/
def Keeps (R : Disk → Disk → Prop) (a : Disk.Action Unit) : Prop :=
  ∀ d e, R d e → R (a.perform d).2 (a.perform e).2

variable {R : Disk → Disk → Prop}

theorem keeps_throw (f : Fault) : Keeps R (throw f) := fun _ _ h => h

/-- The first action ends in the same way on disks of one shape, so both go on or none does. -/
theorem Keeps.bind (hR : ∀ d e, R d e → d.shape = e.shape) {a b : Disk.Action Unit}
    (hblind : Blind a) (ha : Keeps R a) (hb : Keeps R b) : Keeps R (a >>= fun _ => b) := by
  intro d e h
  have hfirst := ha d e h
  have hsame := (hblind.eq_of_shape (hR d e h)).1
  rw [perform_bind, perform_bind]
  cases hd : a.perform d with
  | mk result d₁ =>
    cases he : a.perform e with
    | mk result' e₁ =>
      rw [hd, he] at hfirst hsame
      obtain rfl : result = result' := hsame
      cases result with
      | error f => exact hfirst
      | ok _ => exact hb d₁ e₁ hfirst

theorem keeps_placeFile (hR : ∀ d e, R d e → d.shape = e.shape) {source target : Path}
    (hdirs : ∀ above, target.parent? = some above → Keeps R (makeDirs above))
    (hcopy : Keeps R (copyFile source target)) : Keeps R (placeFile source target) := by
  rw [placeFile_eq]
  cases hp : target.parent? with
  | none => exact hcopy
  | some above => exact Keeps.bind hR (blind_makeDirs above) (hdirs above hp) hcopy

theorem keeps_copyVisits (hR : ∀ d e, R d e → d.shape = e.shape) {source target : Path} :
    ∀ {visits : List (Except Fault Visit)},
      (∀ v : Visit, .ok v ∈ visits → Keeps R (makeDirs (target.joinAll v.names)) ∧
        Keeps R (placeFile (source.joinAll v.names) (target.joinAll v.names))) →
      Keeps R (copyVisits source target visits)
  | [], _ => fun _ _ h => h
  | .error f :: _, _ => keeps_throw f
  | .ok v :: rest, h => by
    obtain ⟨hdirs, hplace⟩ := h v List.mem_cons_self
    have hrest : Keeps R (copyVisits source target rest) :=
      keeps_copyVisits hR fun v hv => h v (List.mem_cons_of_mem _ hv)
    rw [copyVisits_cons]
    cases v.isDir with
    | true => exact Keeps.bind hR (blind_makeDirs _) hdirs hrest
    | false => exact Keeps.bind hR (blind_placeFile _ _) hplace hrest

/-- What is copied is what names below the source lead to. -/
theorem keeps_copyTree (hR : ∀ d e, R d e → d.shape = e.shape) {source target : Path} {d e : Disk}
    (h : R d e) (hd : d.top.Proper)
    (hdirs : ∀ names : List String, (∀ n ∈ names, IsName n) →
      Keeps R (makeDirs (target.joinAll names)))
    (hplace : ∀ (names : List String) (found : Location × Node), (∀ n ∈ names, IsName n) →
      d.stat (source.joinAll names) = .ok found →
      Keeps R (placeFile (source.joinAll names) (target.joinAll names))) :
    R ((copyTree source target).perform d).2 ((copyTree source target).perform e).2 := by
  have hshape := hR d e h
  rw [perform_copyTree, perform_copyTree, walkFrom_of_shape hshape]
  cases hfound : d.stat source with
  | error f =>
    rw [stat_error_of_shape hshape hfound]
    exact h
  | ok found =>
    obtain ⟨l, n⟩ := found
    obtain ⟨n', hfound', hn'⟩ := stat_of_shape hshape hfound
    have hdir : n'.isDir = n.isDir := by rw [← Node.isDir_shape, hn', Node.isDir_shape]
    rw [hfound']
    dsimp only
    rw [hdir]
    cases n.isDir with
    | false => exact hplace [] (l, n) (by simp) hfound d e h
    | true =>
      refine keeps_copyVisits hR (fun v hv => ?_) d e h
      obtain ⟨hnames, l', m, hstat, -⟩ := isSound_walkFrom hd hfound v hv
      exact ⟨hdirs v.names hnames, hplace v.names (l', m) hnames hstat⟩

end Disk.Action

/-- What making directories and copying files keep of two disks a rule keeps of them. -/
theorem CopyRule.run_keeps {t : Template} {r : CopyRule} {R : Disk → Disk → Prop}
    (hR : ∀ d e, R d e → d.shape = e.shape) {d e : Disk} (h : R d e) (hd : d.top.Proper)
    (hdirs : ∀ (p : Path) (names : List String), (∀ n ∈ names, IsName n) →
      p.parts <+: t.project.parts ++ names.map Part.name → Action.Keeps R (Action.makeDirs p))
    (hcopy : ∀ (sub names : List String) (found : Location × Node), (∀ n ∈ sub, IsName n) →
      (∀ n ∈ names, IsName n) →
      d.stat ((t.filesDir.joinAll (namesOf r.source)).joinAll sub) = .ok found →
      Action.Keeps R (Action.copyFile ((t.filesDir.joinAll (namesOf r.source)).joinAll sub)
        (t.project.joinAll names))) :
    R ((r.run t).perform d).2 ((r.run t).perform e).2 := by
  have hdest : ∀ n ∈ namesOf r.destination, IsName n := fun _ => isName_of_mem_namesOf
  rw [CopyRule.perform_run, CopyRule.perform_run]
  cases hpaths : r.paths t with
  | error f => exact h
  | ok paths =>
    obtain ⟨source, target⟩ := paths
    obtain ⟨rfl, rfl⟩ := CopyRule.paths_eq_ok hpaths
    refine Action.keeps_copyTree hR h hd (fun names hnames => ?_) fun names found hnames hstat => ?_
    · have hall := List.forall_mem_append.mpr ⟨hdest, hnames⟩
      rw [← joinAll_append t.project]
      exact hdirs _ _ hall (parts_joinAll _ _ hall ▸ List.prefix_rfl)
    · have hall := List.forall_mem_append.mpr ⟨hdest, hnames⟩
      rw [← joinAll_append t.project]
      refine Action.keeps_placeFile hR (fun above habove => hdirs above _ hall ?_)
        (hcopy names _ found hnames hall hstat)
      obtain ⟨c, hc⟩ := exists_of_parent?_eq_some habove
      rw [← parts_joinAll _ _ hall, hc]
      exact List.prefix_append ..

/-- What making directories and copying files keep a rule keeps. -/
theorem CopyRule.run_invariant {t : Template} {r : CopyRule} {P : Disk → Prop} {d : Disk}
    (h : P d) (hd : d.top.Proper)
    (hdirs : ∀ (p : Path) (names : List String), (∀ n ∈ names, IsName n) →
      p.parts <+: t.project.parts ++ names.map Part.name →
      ∀ d', P d' → P ((Action.makeDirs p).perform d').2)
    (hcopy : ∀ (sub names : List String) (found : Location × Node), (∀ n ∈ sub, IsName n) →
      (∀ n ∈ names, IsName n) →
      d.stat ((t.filesDir.joinAll (namesOf r.source)).joinAll sub) = .ok found →
      ∀ d', P d' → P ((Action.copyFile ((t.filesDir.joinAll (namesOf r.source)).joinAll sub)
        (t.project.joinAll names)).perform d').2) :
    P ((r.run t).perform d).2 := by
  have hboth : d = d ∧ P d := ⟨rfl, h⟩
  refine (CopyRule.run_keeps (R := fun d e => d = e ∧ P e) (fun d e h => h.1 ▸ rfl) hboth hd
    ?_ ?_).2
  · rintro p names hnames hp d' e ⟨rfl, h⟩
    exact ⟨rfl, hdirs p names hnames hp d' h⟩
  · rintro sub names found hsub hnames hstat d' e ⟨rfl, h⟩
    exact ⟨rfl, hcopy sub names found hsub hnames hstat d' h⟩

end Scaffold
