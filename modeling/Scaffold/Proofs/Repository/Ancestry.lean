import Mathlib.Data.Finset.Card
import Mathlib.Logic.Relation
import Scaffold.Repository.Commit

/-!
# Commits before commits

A commit precedes another one if parents lead from the other one to it. `History.isAncestor` looks
for it in as many steps as there are commits, and that is enough (`isAncestor_iff`) : only known
commits have parents, and none has to be left twice on the way. So `History.relation` says which of
two commits precedes which.

What precedes a commit still does so when a history grows (`Precedes.of_prefix`).
-/

namespace Scaffold.History

/-- Whether a commit is another one or comes before it. -/
def Precedes (h : History) (older newer : CommitId) : Prop :=
  Relation.ReflTransGen (fun child parent => parent ∈ h.parents child) newer older

/-- Whether a commit comes before another one, which does not come before it. -/
def IsBehind (h : History) (older newer : CommitId) : Prop :=
  h.Precedes older newer ∧ ¬h.Precedes newer older

theorem Precedes.refl (h : History) (id : CommitId) : h.Precedes id id :=
  Relation.ReflTransGen.refl

theorem Precedes.trans {h : History} {a b c : CommitId} (hab : h.Precedes a b)
    (hbc : h.Precedes b c) : h.Precedes a c := Relation.ReflTransGen.trans hbc hab

/-- A commit with parents is known. -/
theorem lt_length_of_mem_parents {h : History} {child parent : CommitId}
    (hp : parent ∈ h.parents child) : child < h.commits.length := by
  by_contra hle
  have hnone : h.get? child = none := List.getElem?_eq_none (not_lt.mp hle)
  rw [parents, hnone] at hp
  cases hp

theorem IsBehind.ne {h : History} {older newer : CommitId} (hb : h.IsBehind older newer) :
    older ≠ newer := by
  rintro rfl
  exact hb.2 hb.1

/-- A commit that comes after another one is known. -/
theorem IsBehind.lt_length {h : History} {older newer : CommitId} (hb : h.IsBehind older newer) :
    newer < h.commits.length := by
  rcases hb.1.cases_head with heq | ⟨parent, hp, -⟩
  · exact (hb.ne heq.symm).elim
  · exact lt_length_of_mem_parents hp

/-! ## Searching -/

theorem precedes_of_leadsTo {h : History} : ∀ {steps : Nat} {start goal : CommitId},
    h.leadsTo steps start goal = true → h.Precedes goal start
  | 0, start, goal, hl => by
    rw [leadsTo, beq_iff_eq] at hl
    exact hl ▸ .refl h start
  | steps + 1, start, goal, hl => by
    rw [leadsTo, Bool.or_eq_true, beq_iff_eq, List.any_eq_true] at hl
    rcases hl with rfl | ⟨parent, hp, hmore⟩
    · exact .refl h start
    · exact .head hp (precedes_of_leadsTo hmore)

/-- A step to a parent that leaves one of some commits. -/
def StepIn (h : History) (left : Finset CommitId) (child parent : CommitId) : Prop :=
  child ∈ left ∧ parent ∈ h.parents child

/-- A way either does not leave a commit, or leaves it for the last time. -/
theorem StepIn.avoid {h : History} {left : Finset CommitId} {start goal : CommitId}
    (hway : Relation.ReflTransGen (h.StepIn left) start goal) (x : CommitId) :
    Relation.ReflTransGen (h.StepIn (left.erase x)) start goal ∨
      x ∈ left ∧ ∃ parent ∈ h.parents x,
        Relation.ReflTransGen (h.StepIn (left.erase x)) parent goal := by
  induction hway using Relation.ReflTransGen.head_induction_on with
  | refl => exact Or.inl .refl
  | @head child parent hstep _ ih =>
    rcases ih with hmore | hlast
    · by_cases hx : child = x
      · subst hx
        exact Or.inr ⟨hstep.1, parent, hstep.2, hmore⟩
      · exact Or.inl (.head ⟨Finset.mem_erase.mpr ⟨hx, hstep.1⟩, hstep.2⟩ hmore)
    · exact Or.inr hlast

/-- A way is found in as many steps as there are commits that it may leave. -/
theorem leadsTo_of_stepIn {h : History} {steps : Nat} {left : Finset CommitId}
    (hcard : left.card = steps) {start goal : CommitId}
    (hway : Relation.ReflTransGen (h.StepIn left) start goal) :
    h.leadsTo steps start goal = true := by
  induction steps generalizing left start with
  | zero =>
    rcases hway.cases_head with rfl | ⟨parent, hstep, -⟩
    · exact beq_self_eq_true start
    · rw [Finset.card_eq_zero.mp hcard] at hstep
      exact absurd hstep.1 (Finset.notMem_empty start)
  | succ steps ih =>
    rw [leadsTo, Bool.or_eq_true, beq_iff_eq, List.any_eq_true]
    -- After the last time the way leaves its start, it does not leave it any more.
    rcases StepIn.avoid hway start with hstay | ⟨hmem, parent, hp, hmore⟩
    · rcases hstay.cases_head with heq | ⟨parent, hstep, -⟩
      · exact Or.inl heq
      · exact absurd rfl (Finset.mem_erase.mp hstep.1).1
    · refine Or.inr ⟨parent, hp, ih ?_ hmore⟩
      rw [Finset.card_erase_of_mem hmem, hcard, Nat.add_sub_cancel]

theorem isAncestor_iff {h : History} {older newer : CommitId} :
    h.isAncestor older newer = true ↔ h.Precedes older newer := by
  refine ⟨precedes_of_leadsTo, fun hp => ?_⟩
  refine leadsTo_of_stepIn (Finset.card_range h.commits.length)
    (Relation.ReflTransGen.mono (fun child parent hstep => ?_) _ _ hp)
  exact ⟨Finset.mem_range.mpr (lt_length_of_mem_parents hstep), hstep⟩

/-! ## How commits stand to each other -/

theorem relation_eq_ahead {h : History} {ours theirs : CommitId} :
    h.relation ours theirs = .ahead ↔ h.Precedes theirs ours := by
  rw [relation, ← isAncestor_iff]
  split
  · simp_all
  · split <;> simp_all

theorem relation_eq_behind {h : History} {ours theirs : CommitId} :
    h.relation ours theirs = .behind ↔ h.IsBehind ours theirs := by
  rw [relation, IsBehind, ← isAncestor_iff, ← isAncestor_iff]
  split
  · simp_all
  · split <;> simp_all

theorem relation_eq_diverged {h : History} {ours theirs : CommitId} :
    h.relation ours theirs = .diverged ↔ ¬h.Precedes theirs ours ∧ ¬h.Precedes ours theirs := by
  rw [relation, ← isAncestor_iff, ← isAncestor_iff]
  split
  · simp_all
  · split <;> simp_all

/-! ## Histories that grow -/

theorem get?_of_prefix {h h' : History} (hgrow : h.commits <+: h'.commits) {id : CommitId}
    {c : Commit} (hc : h.get? id = some c) : h'.get? id = some c := by
  obtain ⟨more, hmore⟩ := hgrow
  obtain ⟨hlt, -⟩ := List.getElem?_eq_some_iff.mp hc
  rw [get?, ← hmore, List.getElem?_append_left hlt]
  exact hc

theorem snapshot_of_prefix {h h' : History} (hgrow : h.commits <+: h'.commits) {id : CommitId}
    (hid : id < h.commits.length) : h'.snapshot id = h.snapshot id := by
  have hc : h.get? id = some h.commits[id] := List.getElem?_eq_getElem hid
  rw [snapshot, snapshot, hc, get?_of_prefix hgrow hc]

theorem Precedes.of_prefix {h h' : History} (hgrow : h.commits <+: h'.commits)
    {older newer : CommitId} (hp : h.Precedes older newer) : h'.Precedes older newer := by
  refine Relation.ReflTransGen.mono (fun child parent hstep => ?_) _ _ hp
  obtain ⟨c, hc⟩ : ∃ c, h.get? child = some c :=
    ⟨_, List.getElem?_eq_getElem (lt_length_of_mem_parents hstep)⟩
  rw [parents, hc] at hstep
  rw [parents, get?_of_prefix hgrow hc]
  exact hstep

end Scaffold.History
