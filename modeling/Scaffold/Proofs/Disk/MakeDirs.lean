import Scaffold.Disk.Action
import Scaffold.Proofs.Disk.Way

/-!
# Making directories

What an action does to the layout of a disk when it succeeds. `Action.Made` is what making a
directory with those above it does : what the path leads to is a directory then, and so is
everything above it, and nothing else has changed (`Action.made_makeDirs`). A double dot in the
path has to lead somewhere before, since a directory that is made only to be left again is made
as well.
-/

namespace Scaffold

open Scaffold.Path

namespace Disk

namespace Action

/-! ## Actions that succeed -/

theorem perform_bind {α β : Type} (a : Disk.Action α) (f : α → Disk.Action β) (d : Disk) :
    (a >>= f).perform d =
      match a.perform d with
      | (.ok x, d') => (f x).perform d'
      | (.error e, d') => (.error e, d') := by
  simp only [perform, bind, ExceptT.bind, ExceptT.mk, ExceptT.run, StateT.run, StateT.bind,
    ExceptT.bindCont]
  cases h : a d with
  | mk result d' => cases result <;> rfl

theorem perform_bind_of_ok {α β : Type} {a : Disk.Action α} {d d' : Disk} {x : α}
    (h : a.perform d = (.ok x, d')) (f : α → Disk.Action β) :
    (a >>= f).perform d = (f x).perform d' := by
  rw [perform_bind, h]

theorem perform_bind_of_error {α β : Type} {a : Disk.Action α} {d d' : Disk} {e : Fault}
    (h : a.perform d = (.error e, d')) (f : α → Disk.Action β) :
    (a >>= f).perform d = (.error e, d') := by
  rw [perform_bind, h]

/-- An action that succeeds does so in both of its parts. -/
theorem bind_eq_ok {α β : Type} {a : Disk.Action α} {f : α → Disk.Action β} {d d' : Disk} {y : β}
    (h : (a >>= f).perform d = (.ok y, d')) :
    ∃ x d₁, a.perform d = (.ok x, d₁) ∧ (f x).perform d₁ = (.ok y, d') := by
  rw [perform_bind] at h
  split at h
  · rename_i x d₁ ha
    exact ⟨x, d₁, ha, h⟩
  · simp at h

theorem look_eq_ok {α : Type} {f : Disk → Except Fault α} {d d' : Disk} {x : α}
    (h : (look f).perform d = (.ok x, d')) : f d = .ok x ∧ d' = d := by
  have hl : (look f).perform d = (f d, d) := rfl
  rw [hl] at h
  exact ⟨(Prod.mk.inj h).1, (Prod.mk.inj h).2.symm⟩

theorem perform_makeDir (p : Path) (d : Disk) :
    (makeDir p).perform d =
      match d.resolve false p.withoutSlash with
      | .error f => (.error f, d)
      | .ok ⟨_, some _⟩ => (.error .alreadyExists, d)
      | .ok ⟨l, none⟩ => (.ok (), { d with top := d.top.put (some (.dir [])) l }) := by
  unfold makeDir
  rw [perform_bind]
  have hl : (look (·.resolve false p.withoutSlash)).perform d =
    (d.resolve false p.withoutSlash, d) := rfl
  rw [hl]
  cases d.resolve false p.withoutSlash with
  | error f => rfl
  | ok found =>
    obtain ⟨l, n⟩ := found
    cases n <;> rfl

/-- A directory is made where nothing is. -/
theorem makeDir_eq_ok {p : Path} {d d' : Disk} (h : (makeDir p).perform d = (.ok (), d')) :
    ∃ l, d.resolve false p.withoutSlash = .ok ⟨l, none⟩ ∧
      d' = { d with top := d.top.put (some (.dir [])) l } := by
  rw [perform_makeDir] at h
  split at h
  · simp at h
  · simp at h
  · rename_i l hl
    exact ⟨l, hl, (Prod.mk.inj h).2.symm⟩

theorem perform_ensureDir (p : Path) (d : Disk) :
    (ensureDir p).perform d =
      match (makeDir p).perform d with
      | (.ok _, d') => (.ok (), d')
      | (.error f, _) => if d.isDir p then (.ok (), d) else (.error f, d) := by
  unfold ensureDir
  rw [perform_bind]
  change perform (match (makeDir p).perform d with
    | (.ok _, d) => set d
    | (.error f, _) => if d.isDir p then pure () else throw f) d = _
  split
  · rfl
  · split <;> rfl

/-- A directory is made, or one is there and nothing happens. -/
theorem ensureDir_eq_ok {p : Path} {d d' : Disk} (h : (ensureDir p).perform d = (.ok (), d')) :
    (makeDir p).perform d = (.ok (), d') ∨ d' = d ∧ d.isDir p = true := by
  rw [perform_ensureDir] at h
  split at h
  · rename_i d₁ hm
    exact Or.inl (hm.trans h)
  · split at h
    · rename_i hdir
      exact Or.inr ⟨(Prod.mk.inj h).2.symm, hdir⟩
    · simp at h

theorem perform_ensureDirsFrom_cons (p : Path) (above : List Path) (d : Disk) :
    (ensureDirsFrom (p :: above)).perform d =
      if p.text.isEmpty then (.ok (), d)
      else
        match (makeDir p).perform d with
        | (.ok _, d') => (.ok (), d')
        | (.error .notFound, _) => (ensureDirsFrom above >>= fun _ => ensureDir p).perform d
        | (.error f, _) => if d.isDir p then (.ok (), d) else (.error f, d) := by
  rw [ensureDirsFrom]
  split
  · rfl
  · rw [perform_bind]
    change perform (match (makeDir p).perform d with
      | (.ok _, d) => set d
      | (.error .notFound, _) => do
        ensureDirsFrom above
        ensureDir p
      | (.error f, _) => if d.isDir p then pure () else throw f) d = _
    split
    · rfl
    · rfl
    · split <;> rfl

/-- Directories are made from the top down when the one above is missing. -/
theorem ensureDirsFrom_eq_ok {p : Path} {above : List Path} {d d' : Disk}
    (h : (ensureDirsFrom (p :: above)).perform d = (.ok (), d')) :
    (p.text = "" ∧ d' = d) ∨
      ((makeDir p).perform d = (.ok (), d') ∨ d' = d ∧ d.isDir p = true) ∨
      p.text ≠ "" ∧ ((makeDir p).perform d).1 = .error .notFound ∧ ∃ d₁,
        (ensureDirsFrom above).perform d = (.ok (), d₁) ∧
          (ensureDir p).perform d₁ = (.ok (), d') := by
  rw [perform_ensureDirsFrom_cons] at h
  split at h
  · rename_i hp
    exact Or.inl ⟨by simpa using hp, (Prod.mk.inj h).2.symm⟩
  · rename_i hp
    split at h
    · rename_i d₁ hm
      exact Or.inr (Or.inl (Or.inl (hm.trans h)))
    · rename_i d₁ hm
      obtain ⟨_, d₂, habove, hmade⟩ := bind_eq_ok h
      exact Or.inr (Or.inr ⟨by simpa using hp, by rw [hm], d₂, habove, hmade⟩)
    · split at h
      · rename_i hdir
        exact Or.inr (Or.inl (Or.inr ⟨(Prod.mk.inj h).2.symm, hdir⟩))
      · simp at h

/-! ## One directory -/

/-- A free place that a path leads to is one more name in a directory. -/
theorem exists_of_resolve_none {d : Disk} {p : Path} {l : Location}
    (h : d.resolve false p = .ok ⟨l, none⟩) :
    ∃ ps n above, p.parts = ps ++ [.name n] ∧ IsName n ∧ d.Leads ps above ∧ l = above ++ [n] ∧
      d.top.layout l = none := by
  have hf := follow_of_resolve_none h
  obtain ⟨start, steps, hparts, hstart, hsteps⟩ := areParts_parts p
  cases steps using List.reverseRecOn with
  | nil =>
    rw [List.append_nil] at hparts
    have hnil : stepsOfParts p.parts = [] := by
      rw [hparts]
      rcases hstart with rfl | rfl | rfl <;> rfl
    exact (resolve_ne_none_of_stepsOfParts hnil h).elim
  | append_singleton steps c =>
    have hc : c.IsStep := hsteps c (by simp)
    rw [hparts, ← List.append_assoc] at hf
    obtain ⟨above, hl⟩ := exists_leads_of_follow hc hf
    cases c with
    | root | here => exact hc.elim
    | up =>
      obtain ⟨k, hk⟩ := hl.follow_append hc rfl
      rw [hk, walk_up, hl.layout] at hf
      obtain ⟨rfl, hn⟩ := Found.mk.inj (Except.ok.inj hf)
      have hdir := Node.layout_above hl.layout (List.dropLast_prefix above)
      rw [Node.layout, hn] at hdir
      cases hdir
    | name n =>
      refine ⟨start ++ steps, n, above, by rw [hparts, List.append_assoc], hc, hl, ?_⟩
      cases hlay : d.top.layout (above ++ [n]) with
      | none =>
        rw [hl.follow_name hc false (by simp [hlay])] at hf
        obtain ⟨rfl, -⟩ := Found.mk.inj (Except.ok.inj hf)
        exact ⟨rfl, hlay⟩
      | some i =>
        cases i with
        | link target =>
          rw [hl.follow_link hc hlay] at hf
          simp at hf
        | dir | file bytes executable =>
          rw [hl.follow_name hc false (by simp [hlay])] at hf
          obtain ⟨rfl, hn⟩ := Found.mk.inj (Except.ok.inj hf)
          rw [Node.layout, hn] at hlay
          simp at hlay

/-! ## Directories above directories -/

/-- Directories above a location are among those at the location and above. -/
theorem withDirs_above {a b : Location} (h : a <+: b) (layout : Layout) :
    (layout.withDirs a).withDirs b = layout.withDirs b := by
  funext l
  unfold Layout.withDirs
  split
  · rfl
  · rename_i hb
    rw [if_neg fun ha => hb (ha.trans h)]

theorem not_concat_below (l : Location) (name : String) : ¬l ++ [name] <+: l := by
  intro h
  have hlen := h.length_le
  rw [List.length_append, List.length_singleton] at hlen
  omega

/-- One more directory in a directory is all that is missing on the way to it. -/
theorem set_dir_eq_withDirs {n : Node} {above : Location} (h : n.layout above = some .dir)
    (name : String) :
    n.layout.set (above ++ [name]) .dir = n.layout.withDirs (above ++ [name]) := by
  funext l
  unfold Layout.set Layout.withDirs
  by_cases hl : l = above ++ [name]
  · rw [if_pos hl, if_pos (hl ▸ List.prefix_rfl)]
  · rw [if_neg hl]
    split
    · rename_i hpre
      exact Node.layout_above h ((List.prefix_concat_iff.mp hpre).resolve_left hl)
    · rfl

/-- Whether a disk has all that an older one has, with the same nodes where nothing was added
below. -/
structure Adds (d d' : Disk) : Prop where
  here : d'.here = d.here
  old : ∀ l, d.top.layout l ≠ none → d'.top.layout l = d.top.layout l
  kept : ∀ l n, d.top.at? l = some n →
    (∀ r, d'.top.layout (l ++ r) = d.top.layout (l ++ r)) → d'.top.at? l = some n

theorem Adds.refl (d : Disk) : Adds d d := ⟨rfl, fun _ _ => rfl, fun _ _ h _ => h⟩

theorem Adds.trans {d d₁ d' : Disk} (h : Adds d d₁) (h' : Adds d₁ d') : Adds d d' where
  here := h'.here.trans h.here
  old l hl := by
    have hmid := h.old l hl
    rw [← hmid] at hl ⊢
    exact h'.old l hl
  kept l n hn hsame := by
    have hmid : ∀ r, d₁.top.layout (l ++ r) = d.top.layout (l ++ r) := fun r => by
      by_cases hr : d₁.top.layout (l ++ r) = none
      · by_cases hd : d.top.layout (l ++ r) = none
        · rw [hr, hd]
        · exact h.old _ hd
      · rw [← hsame, h'.old _ hr]
    refine h'.kept l n (h.kept l n hn hmid) fun r => ?_
    rw [hsame, hmid]

theorem Adds.grows {d d' : Disk} (h : Adds d d') : d.top.layout.Grows d'.top.layout := by
  intro l
  by_cases hl : d.top.layout l = none
  · exact Or.inr (Or.inl hl)
  · exact Or.inl (h.old l hl)

/-- What making a directory does to a disk, whose path has these parts. -/
structure Made (d d' : Disk) (ps : List Part) : Prop extends Adds d d' where
  layout : ∀ l, d'.Leads ps l → d'.top.layout = d.top.layout.withDirs l

theorem Made.refl (d : Disk) (ps : List Part) : Made d d ps :=
  ⟨.refl d, fun _ hl => (Node.withDirs_layout hl.layout).symm⟩

/-- Making a directory stores one under a name in a directory that is there. -/
theorem exists_of_makeDir {p : Path} {d d' : Disk} (h : (makeDir p).perform d = (.ok (), d')) :
    ∃ ps n above, p.parts = ps ++ [.name n] ∧ d.Leads ps above ∧ d'.Leads p.parts (above ++ [n]) ∧
      Adds d d' ∧ d'.top.layout = d.top.layout.withDirs (above ++ [n]) := by
  obtain ⟨l, hr, hd⟩ := makeDir_eq_ok h
  obtain ⟨ps, n, above, hparts, hn, hl, rfl, hnone⟩ := exists_of_resolve_none hr
  rw [parts_withoutSlash] at hparts
  have htop : d'.top = d.top.put (some (.dir [])) (above ++ [n]) := by rw [hd]
  have hlay : d'.top.layout = d.top.layout.set (above ++ [n]) .dir := by
    rw [htop]
    refine Node.layout_put (fun r hr => ?_) hl.layout fun r hr => ?_
    · obtain ⟨name, r, rfl⟩ := List.exists_cons_of_ne_nil hr
      rfl
    · rw [Node.at?_append, Node.layout_eq_none.mp hnone]
      rfl
  have hdir : d'.top.layout (above ++ [n]) = some .dir := by
    rw [hlay]
    exact if_pos rfl
  have hadds : Adds d d' := by
    refine ⟨by rw [hd], fun l hl => ?_, fun l m hm hsame => ?_⟩
    · rw [hlay]
      exact if_neg fun heq => hl (by rw [heq, hnone])
    · rw [htop, Node.at?_put_of_diverging, hm]
      · rintro ⟨r, rfl⟩
        rw [Node.at?_append, Node.layout_eq_none.mp hnone] at hm
        cases hm
      · rintro ⟨r, hr⟩
        rw [← hr, hsame r, hr, hnone] at hdir
        cases hdir
  obtain ⟨entries, he⟩ := Node.layout_eq_dir.mp hdir
  refine ⟨ps, n, above, hparts, hl, ⟨entries, ?_⟩, hadds, ?_⟩
  · rw [hparts, (hl.of_grows hadds.grows hadds.here).follow_name hn true (by simp [hdir]), he]
  · rw [hlay, set_dir_eq_withDirs hl.layout]

/-- A directory is made, or it is there. -/
theorem made_of_makeDir {p : Path} {d d' : Disk}
    (h : (makeDir p).perform d = (.ok (), d') ∨ d' = d ∧ d.isDir p = true) :
    Made d d' p.parts ∧ ∃ l, d'.Leads p.parts l := by
  rcases h with h | ⟨rfl, hdir⟩
  · obtain ⟨ps, n, above, hparts, hl, hnew, hadds, hlay⟩ := exists_of_makeDir h
    refine ⟨⟨hadds, fun l hl' => ?_⟩, above ++ [n], hnew⟩
    rw [hl'.unique hnew, hlay]
  · exact ⟨.refl d' _, exists_leads_of_isDir hdir⟩

/-- Making a directory in one that was made just before. -/
theorem Made.ensureDir {p : Path} {ps : List Part} {n : String} (hn : IsName n)
    (hparts : p.parts = ps ++ [.name n]) {d d₁ d' : Disk} (hm : Made d d₁ ps)
    (h : (ensureDir p).perform d₁ = (.ok (), d')) :
    Made d d' p.parts ∧ ∃ l, d'.Leads p.parts l := by
  rcases ensureDir_eq_ok h with h | ⟨rfl, hdir⟩
  · obtain ⟨ps', n', above, hparts', hl, hnew, hadds, hlay⟩ := exists_of_makeDir h
    obtain ⟨rfl, -⟩ := List.append_inj' (hparts'.symm.trans hparts) rfl
    refine ⟨⟨hm.toAdds.trans hadds, fun l hl' => ?_⟩, above ++ [n'], hnew⟩
    rw [hl'.unique hnew, hlay, hm.layout above hl,
      withDirs_above (List.prefix_append above [n'])]
  · obtain ⟨l, hl⟩ := exists_leads_of_isDir hdir
    have hthere := hl
    rw [hparts] at hthere
    obtain ⟨entries, hf⟩ := hthere
    obtain ⟨above, habove⟩ := exists_leads_of_follow (c := .name n) hn hf
    -- What was made is empty, so the directory above was there if there is one in it.
    have hsome : d'.top.layout (above ++ [n]) ≠ none := fun hnone => by
      rw [habove.follow_name hn true (by simp [hnone]), Node.layout_eq_none.mp hnone] at hf
      cases (Found.mk.inj (Except.ok.inj hf)).2
    have hsame : d'.top.layout = d.top.layout := by
      rw [hm.layout above habove, Layout.withDirs, if_neg (not_concat_below above n)] at hsome
      rw [hm.layout above habove]
      exact Node.withDirs_layout (Node.layout_of_append (by simp) hsome)
    refine ⟨⟨hm.toAdds, fun l' hl' => ?_⟩, l, hl⟩
    rw [← hsame, Node.withDirs_layout hl'.layout]

/-- A directory that is there is not made. -/
theorem perform_makeDir_of_leads {p : Path} (hp : p.text ≠ "") {d : Disk} {l : Location}
    (h : d.Leads p.parts l) : (makeDir p).perform d = (.error .alreadyExists, d) := by
  have hp' := text_withoutSlash_ne hp
  rw [← parts_withoutSlash p] at h
  obtain ⟨entries, hf⟩ := h
  have hr := resolve_of_follow hp' hf
  rw [resolve_eq d true hp'] at hr
  obtain ⟨l', n', hfalse, -⟩ := exists_walk_false hr
  rw [perform_makeDir, resolve_eq d false hp', hfalse]

/-- Nothing is made where the first path leads to a directory. -/
theorem ensureDirsFrom_of_leads {p : Path} {d : Disk} {l : Location} (h : d.Leads p.parts l)
    (above : List Path) : (ensureDirsFrom (p :: above)).perform d = (.ok (), d) := by
  rw [perform_ensureDirsFrom_cons]
  by_cases hp : p.text = ""
  · simp [hp]
  · have hdir : d.isDir p = true := by
      obtain ⟨entries, hf⟩ := h
      unfold isDir
      rw [stat_eq_ok.mpr (resolve_of_follow hp hf)]
      rfl
    rw [perform_makeDir_of_leads hp h]
    simp [hp, hdir]

/-- Directories that are there are not made. -/
theorem makeDirs_of_leads {p : Path} {d : Disk} {l : Location} (h : d.Leads p.parts l) :
    (makeDirs p).perform d = (.ok (), d) := by
  obtain ⟨above, habove⟩ : ∃ above, pathsUp p.parts.length p = p :: above := by
    cases p.parts.length <;> exact ⟨_, rfl⟩
  rw [makeDirs, habove]
  exact ensureDirsFrom_of_leads h above

/-! ## All directories on the way -/

/-- Whether each double dot among some parts leads to a directory that is there. -/
def UpsLead (d : Disk) (ps : List Part) : Prop :=
  ∀ above, above ++ [.up] <+: ps → ∃ l, d.Leads (above ++ [.up]) l

/-- Above the start of a path there is nothing to make. -/
theorem eq_of_ensureDirsFrom_start {p : Path} {start : List Part} (hparts : p.parts = start)
    (hstart : start = [] ∨ start = [.root] ∨ start = [.here]) {fuel : Nat} {d d' : Disk}
    (h : (ensureDirsFrom (p.parent?.elim [] (pathsUp fuel))).perform d = (.ok (), d')) :
    d' = d := by
  unfold parent? at h
  rw [hparts] at h
  rcases hstart with rfl | rfl | rfl
  · cases (Prod.mk.inj h).1
  · cases (Prod.mk.inj h).1
  · have hcons : ∃ rest, pathsUp fuel (ofParts []) = ofParts [] :: rest := by
      cases fuel with
      | zero => exact ⟨_, rfl⟩
      | succ fuel => exact ⟨_, rfl⟩
    obtain ⟨rest, hrest⟩ := hcons
    change (ensureDirsFrom (pathsUp fuel (ofParts []))).perform d = _ at h
    rw [hrest, perform_ensureDirsFrom_cons, if_pos (by rfl)] at h
    exact (Prod.mk.inj h).2.symm

/-- Making the directories of a path from the first one that is missing, by induction on how
many there are above. -/
theorem made_of_ensureDirsFrom (fuel : Nat) {p : Path} {d d' : Disk} (hup : UpsLead d p.parts)
    (h : (ensureDirsFrom (pathsUp fuel p)).perform d = (.ok (), d')) :
    Made d d' p.parts ∧ (p.text ≠ "" → ∃ l, d'.Leads p.parts l) := by
  induction fuel generalizing p d d' with
  | zero =>
    rcases ensureDirsFrom_eq_ok h with ⟨hp, rfl⟩ | h | ⟨-, -, d₁, habove, -⟩
    · exact ⟨.refl _ _, fun hne => (hne hp).elim⟩
    · exact (made_of_makeDir h).imp_right fun hl _ => hl
    · cases (Prod.mk.inj habove).1
  | succ fuel ih =>
    rcases ensureDirsFrom_eq_ok h with ⟨hp, rfl⟩ | h | ⟨hp, hmiss, d₁, habove, hmade⟩
    · exact ⟨.refl _ _, fun hne => (hne hp).elim⟩
    · exact (made_of_makeDir h).imp_right fun hl _ => hl
    · obtain ⟨start, steps, hparts, hstart, hsteps⟩ := areParts_parts p
      cases steps using List.reverseRecOn with
      | nil =>
        rw [List.append_nil] at hparts
        have hsame : d₁ = d := eq_of_ensureDirsFrom_start hparts hstart habove
        rw [hsame] at hmade
        exact (made_of_makeDir (ensureDir_eq_ok hmade)).imp_right fun hl _ => hl
      | append_singleton steps c =>
        have hc : c.IsStep := hsteps c (by simp)
        rw [← List.append_assoc] at hparts
        cases c with
        | root | here => exact hc.elim
        | up =>
          -- What is above a double dot that leads somewhere is never missing.
          obtain ⟨l, hl⟩ := hup (start ++ steps) (hparts ▸ List.prefix_rfl)
          rw [← hparts] at hl
          rw [perform_makeDir_of_leads hp hl] at hmiss
          cases hmiss
        | name n =>
          have hpre : AreParts (start ++ steps) := .of_append (hparts ▸ areParts_parts p)
          have hq := parts_ofParts hpre
          rw [parent?_eq hparts hc, Option.elim_some] at habove
          have hup' : UpsLead d (ofParts (start ++ steps)).parts := fun above ha => by
            refine hup above (ha.trans ?_)
            rw [hq, hparts]
            exact List.prefix_append ..
          have hm := (ih hup' habove).1
          rw [hq] at hm
          obtain ⟨hmade, hleads⟩ := hm.ensureDir hc hparts hmade
          exact ⟨hmade, fun _ => hleads⟩

/-- A directory is made at once, or after the directory above it is. -/
theorem makeDirs_eq {p : Path} {ps : List Part} {c : Part} (hparts : p.parts = ps ++ [c])
    (hc : c.IsStep) :
    makeDirs p = ensureDirsFrom (p :: pathsUp (ofParts ps).parts.length (ofParts ps)) := by
  have hps : AreParts ps := .of_append (hparts ▸ areParts_parts p)
  rw [makeDirs, hparts, List.length_append, List.length_singleton, pathsUp, parent?_eq hparts hc,
    parts_ofParts hps]
  rfl

/-- Making a directory with those above it. -/
theorem made_makeDirs {p : Path} {d d' : Disk} (hup : UpsLead d p.parts)
    (h : (makeDirs p).perform d = (.ok (), d')) :
    Made d d' p.parts ∧ (p.text ≠ "" → ∃ l, d'.Leads p.parts l) :=
  made_of_ensureDirsFrom _ hup h

end Action

end Disk

end Scaffold
