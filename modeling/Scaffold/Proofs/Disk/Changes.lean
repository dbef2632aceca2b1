import Scaffold.Proofs.Disk.MakeDirs
import Scaffold.Proofs.Disk.Proper

/-!
# What actions change

What actions do to a disk whether they succeed or not. `Action.Makes` is what making
directories does : all that was there stays, and where something is new there is a directory
that the path, or one above it, leads to (`Action.makes_makeDirs`). A file that is stored where
a path leads is all that is new, if it takes the place of nothing but a file
(`stored_of_resolve`).
-/

namespace Scaffold

open Scaffold.Path

namespace Disk

/-! ## Storing a file -/

/-- Storing a file in the place of another one changes that file and nothing else. -/
theorem Node.layout_put_file {n : Node} {l : Location} {bytes : ByteArray} {executable : Bool}
    (h : n.at? l = some (.file bytes executable)) (bytes' : ByteArray) (executable' : Bool) :
    (Node.put (some (.file bytes' executable')) l n).layout =
      n.layout.set l (.file bytes' executable') := by
  have hnew : ∀ r, r ≠ [] → (Node.file bytes' executable').at? r = none := fun r hr =>
    Node.at?_eq_none_of_not_dir (Node.at?_nil _) rfl hr
  have hold : ∀ r, r ≠ [] → n.at? (l ++ r) = none := fun r hr =>
    Node.at?_eq_none_of_not_dir h rfl hr
  rcases List.eq_nil_or_concat' l with rfl | ⟨above, name, rfl⟩
  · funext r
    by_cases hr : r = []
    · subst hr
      rfl
    · have hn := hold r hr
      rw [List.nil_append, ← Node.layout_eq_none] at hn
      rw [Layout.set, if_neg hr, hn]
      exact Node.layout_eq_none.mpr (hnew r hr)
  · have hdir := Node.layout_of_append (List.cons_ne_nil name [])
      (by rw [Node.layout_eq_file.mpr h]; exact Option.some_ne_none _)
    exact Node.layout_put hnew hdir hold

/-- What a path leads to stands where it leads. -/
theorem node_of_resolve {d : Disk} {p : Path} {found : Found} (h : d.resolve true p = .ok found) :
    found.node = d.top.at? found.location := by
  rw [resolve_eq d true (text_ne_of_resolve h)] at h
  exact walk_node h

/-- A file that is stored where a path leads, in a free place or in the place of a file. -/
theorem stored_of_resolve {d : Disk} {p : Path} {found : Found}
    (h : d.resolve true p = .ok found) (hfile : found.node.any (!·.isFile) = false)
    (bytes : ByteArray) (executable : Bool) :
    let top := d.top.put (some (.file bytes executable)) found.location
    top.layout = d.top.layout.set found.location (.file bytes executable) ∧
      d.top.layout.Grows top.layout ∧ (d.top.Proper → top.Proper) := by
  obtain ⟨l, n⟩ := found
  have hn : n = d.top.at? l := node_of_resolve h
  cases n with
  | none =>
    obtain ⟨above, name, rfl, hname, hdir, hnone⟩ := exists_of_resolve_eq_none h
    have hnew : ∀ r, r ≠ [] → (Node.file bytes executable).at? r = none := fun r hr =>
      Node.at?_eq_none_of_not_dir (Node.at?_nil _) rfl hr
    have hlay := Node.layout_put hnew hdir fun r _ => by
      rw [Node.at?_append, ← hn, Option.bind_none]
    refine ⟨hlay, ?_, fun hd => .put (.file _ _) hd fun last hlast => ?_⟩
    · rw [hlay]
      exact Layout.grows_set_file (Or.inl hnone) bytes executable
    · rw [List.getLast?_concat] at hlast
      exact Option.some.inj hlast ▸ hname
  | some n =>
    cases n with
    | dir entries => cases hfile
    | link target => cases hfile
    | file bytes' executable' =>
      have hlay := Node.layout_put_file hn.symm bytes executable
      refine ⟨hlay, ?_, fun hd => .put (.file _ _) hd fun last hlast => ?_⟩
      · rw [hlay]
        exact Layout.grows_set_file (Or.inr ⟨_, _, Node.layout_eq_file.mpr hn.symm⟩) bytes executable
      · obtain ⟨above, rfl⟩ := List.getLast?_eq_some_iff.mp hlast
        have hdir : d.top.layout above = some .dir := Node.layout_of_append (List.cons_ne_nil last [])
          (by rw [Node.layout_eq_file.mpr hn.symm]; exact Option.some_ne_none _)
        obtain ⟨entries, he⟩ := Node.layout_eq_dir.mp hdir
        rw [Node.at?_concat_dir last he] at hn
        exact (hd.mem_entries he ((hd.at? he).get?_iff.mp hn.symm)).1

namespace Action

/-! ## Making directories -/

/-- What making directories does to a disk, whose paths have these parts or the first of them. -/
structure Makes (d d' : Disk) (ps : List Part) : Prop extends Adds d d' where
  made : ∀ l, d'.top.layout l ≠ d.top.layout l → d'.top.layout l = some .dir ∧
    ∃ above n, above ++ [.name n] <+: ps ∧ d'.Leads (above ++ [.name n]) l
  proper : d.top.Proper → d'.top.Proper

theorem Makes.refl (d : Disk) (ps : List Part) : Makes d d ps :=
  ⟨.refl d, fun _ h => (h rfl).elim, id⟩

theorem Makes.trans {d d₁ d' : Disk} {ps qs : List Part} (h : Makes d d₁ ps) (hps : ps <+: qs)
    (h' : Makes d₁ d' qs) : Makes d d' qs where
  toAdds := h.toAdds.trans h'.toAdds
  made l hl := by
    by_cases h₁ : d₁.top.layout l = d.top.layout l
    · exact h'.made l (by rwa [h₁])
    · obtain ⟨hdir, above, n, habove, hleads⟩ := h.made l h₁
      refine ⟨?_, above, n, habove.trans hps, hleads.of_grows h'.grows h'.here⟩
      rw [h'.old l (by simp [hdir]), hdir]
  proper hd := h'.proper (h.proper hd)

/-- What is no directory was not made. -/
theorem Makes.layout_of_ne_dir {d d' : Disk} {ps : List Part} (h : Makes d d' ps) {l : Location}
    {i : Item} (hi : i ≠ .dir) (hl : d'.top.layout l = some i) : d.top.layout l = some i := by
  by_contra hne
  have hdir := (h.made l fun hsame => hne (hsame ▸ hl)).1
  exact hi (Option.some.inj (hl.symm.trans hdir))

theorem makes_makeDir (p : Path) (d : Disk) : Makes d ((makeDir p).perform d).2 p.parts := by
  cases hm : (makeDir p).perform d with
  | mk result d' =>
    cases result with
    | error f =>
      have hsame : d' = d := by
        rw [perform_makeDir] at hm
        split at hm <;> simp_all
      rw [hsame]
      exact .refl d _
    | ok _ =>
      obtain ⟨ps, n, above, hparts, hl, hnew, hadds, hlay⟩ := exists_of_makeDir hm
      refine ⟨hadds, fun l hl' => ?_, fun hd => ?_⟩
      · rw [hlay, Layout.withDirs] at hl'
        split at hl'
        · rename_i hpre
          obtain rfl : l = above ++ [n] := (List.prefix_concat_iff.mp hpre).resolve_right
            fun h => hl' (Node.layout_above hl.layout h).symm
          exact ⟨hnew.layout, ps, n, hparts ▸ List.prefix_rfl, hparts ▸ hnew⟩
        · exact (hl' rfl).elim
      · obtain ⟨l, hr, hd'⟩ := makeDir_eq_ok hm
        obtain ⟨above, name, rfl, hname, -⟩ := exists_of_resolve_eq_none hr
        rw [hd']
        refine .put Node.proper_emptyDir hd fun last hlast => ?_
        rw [List.getLast?_concat] at hlast
        exact Option.some.inj hlast ▸ hname

theorem makes_ensureDir (p : Path) (d : Disk) : Makes d ((ensureDir p).perform d).2 p.parts := by
  have hm := makes_makeDir p d
  rw [perform_ensureDir]
  cases h : (makeDir p).perform d with
  | mk result d' =>
    rw [h] at hm
    cases result with
    | ok _ => exact hm
    | error f =>
      dsimp only
      split <;> exact .refl d _

/-- Making a directory after those above it. -/
theorem makes_ensureDirsFrom_cons {p : Path} {above : List Path}
    (habove : ∀ d, ∃ ps, ps <+: p.parts ∧ Makes d ((ensureDirsFrom above).perform d).2 ps)
    (d : Disk) : Makes d ((ensureDirsFrom (p :: above)).perform d).2 p.parts := by
  have hm := makes_makeDir p d
  rw [perform_ensureDirsFrom_cons]
  split
  · exact .refl d _
  · cases h : (makeDir p).perform d with
    | mk result d' =>
      rw [h] at hm
      cases result with
      | ok _ => exact hm
      | error f =>
        cases f with
        | notFound =>
          obtain ⟨ps, hps, hfirst⟩ := habove d
          dsimp only
          rw [perform_bind]
          cases hrun : (ensureDirsFrom above).perform d with
          | mk result d₁ =>
            rw [hrun] at hfirst
            cases result with
            | ok _ => exact hfirst.trans hps (makes_ensureDir p d₁)
            | error f => exact hfirst.trans hps (.refl d₁ _)
        | _ =>
          dsimp only
          split <;> exact .refl d _

/-- Making the directories of a path, by induction on how many there are above. -/
theorem makes_ensureDirsFrom (fuel : Nat) (p : Path) (d : Disk) :
    Makes d ((ensureDirsFrom (pathsUp fuel p)).perform d).2 p.parts := by
  have hnil (p : Path) : ∀ d, ∃ ps, ps <+: p.parts ∧
      Makes d ((ensureDirsFrom []).perform d).2 ps := fun d => ⟨[], List.nil_prefix, .refl d []⟩
  induction fuel generalizing p d with
  | zero => exact makes_ensureDirsFrom_cons (hnil p) d
  | succ fuel ih =>
    rw [pathsUp]
    cases hp : p.parent? with
    | none => exact makes_ensureDirsFrom_cons (hnil p) d
    | some q =>
      obtain ⟨c, hc⟩ := exists_of_parent?_eq_some hp
      exact makes_ensureDirsFrom_cons (fun d => ⟨q.parts, hc ▸ List.prefix_append .., ih q d⟩) d

/-- Making a directory and those above it. -/
theorem makes_makeDirs (p : Path) (d : Disk) : Makes d ((makeDirs p).perform d).2 p.parts :=
  makes_ensureDirsFrom _ p d

/-- A directory that is made is one that the path leads to, unless the path says nothing. -/
theorem exists_leads_of_makeDirs {p : Path} {d d' : Disk}
    (h : (makeDirs p).perform d = (.ok (), d')) : p.parts = [] ∨ ∃ l, d'.Leads p.parts l := by
  unfold makeDirs at h
  obtain ⟨above, habove⟩ : ∃ above, pathsUp p.parts.length p = p :: above := by
    cases p.parts.length <;> exact ⟨_, rfl⟩
  rw [habove] at h
  rcases ensureDirsFrom_eq_ok h with ⟨hp, -⟩ | hm | ⟨-, -, d₁, -, hm⟩
  · exact Or.inl (by rw [parts, hp]; rfl)
  · exact Or.inr (made_of_makeDir hm).2
  · exact Or.inr (made_of_makeDir (ensureDir_eq_ok hm)).2

end Action

end Disk

end Scaffold
