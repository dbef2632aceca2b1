import Scaffold.Proofs.Repository.Files
import Scaffold.Repository.Depot

/-!
# Actions on depots

`Action.Meets` says of an action that it keeps a property of depots, whether it succeeds or not,
and what it comes to when it succeeds. It goes through the steps of an action (`Meets.bind`) and
through visits of what is nested (`meets_visit`).

Changing a working copy stores the files at one location and the repository at another one
(`exists_of_changeCopy`), so what is apart from both stays as it is (`layout_changeCopy`).
-/

namespace Scaffold

open Disk

namespace Depot

namespace Action

variable {α β : Type} {I : Depot → Prop} {Q : α → Prop} {R : β → Prop}

theorem perform_bind (a : Action α) (f : α → Action β) (d : Depot) :
    (a >>= f).perform d =
      match a.perform d with
      | (.ok x, d') => (f x).perform d'
      | (.error e, d') => (.error e, d') := by
  simp only [perform, bind, ExceptT.bind, ExceptT.mk, ExceptT.run, StateT.run, StateT.bind,
    ExceptT.bindCont]
  cases h : a d with
  | mk result d' => cases result <;> rfl

theorem perform_get_bind (f : Depot → Action β) (d : Depot) :
    (get >>= f).perform d = (f d).perform d := rfl

/-- Whether an action keeps a property of depots, and what it comes to if it succeeds. -/
def Meets (I : Depot → Prop) (a : Action α) (Q : α → Prop) : Prop :=
  ∀ d, I d → I (a.perform d).2 ∧ ∀ x, (a.perform d).1 = .ok x → Q x

theorem Meets.bind {a : Action α} {f : α → Action β} (ha : Meets I a Q)
    (hf : ∀ x, Q x → Meets I (f x) R) : Meets I (a >>= f) R := by
  intro d hd
  obtain ⟨hkeep, hq⟩ := ha d hd
  rw [perform_bind]
  cases h : a.perform d with
  | mk result d' =>
    rw [h] at hkeep hq
    cases result with
    | ok x => exact hf x (hq x rfl) d' hkeep
    | error e => exact ⟨hkeep, nofun⟩

theorem meets_pure {x : α} (hx : Q x) : Meets I (pure x) Q :=
  fun _ hd => ⟨hd, fun _ hy => Except.ok.inj hy ▸ hx⟩

theorem meets_throw (e : Repository.Fault) : Meets I (throw e : Action α) Q :=
  fun _ hd => ⟨hd, nofun⟩

theorem meets_inspect {f : Depot → Except Repository.Fault α}
    (h : ∀ d x, I d → f d = .ok x → Q x) : Meets I (inspect f) Q :=
  fun d hd => ⟨hd, fun x hx => h d x hd hx⟩

/-- A step that goes by what the depot is. -/
theorem meets_get {f : Depot → Action β} (h : ∀ d, I d → Meets I (f d) R) :
    Meets I (get >>= f) R :=
  fun d hd => by
    rw [perform_get_bind]
    exact h d hd d hd

theorem meets_modify {f : Depot → Depot} (h : ∀ d, I d → I (f d)) :
    Meets I (modify f : Action Unit) fun _ => True :=
  fun d hd => ⟨h d hd, fun _ _ => trivial⟩

/-! ## Visits -/

theorem meets_visitEach {enter : β → Action α} {next : α → Action Unit}
    (henter : ∀ b, R b → Meets I (enter b) Q) (hnext : ∀ a, Q a → Meets I (next a) fun _ => True) :
    ∀ {bs : List β}, (∀ b ∈ bs, R b) → Meets I (Nested.visitEach enter next bs) fun _ => True
  | [], _ => meets_pure trivial
  | b :: _, h => (henter b (h b List.mem_cons_self)).bind fun a ha => (hnext a ha).bind fun _ _ =>
      meets_visitEach henter hnext fun b hb => h b (List.mem_cons_of_mem _ hb)

/-- A visit meets what finding and entering what is nested meet, by induction on the depth. -/
theorem meets_visit {children : α → Action (List β)} {enter : α → β → Action α}
    {R : α → β → Prop} (hchildren : ∀ a, Q a → Meets I (children a) fun bs => ∀ b ∈ bs, R a b)
    (henter : ∀ a, Q a → ∀ b, R a b → Meets I (enter a b) Q) :
    ∀ {depth : Nat} {a : α}, Q a → Meets I (Nested.visit children enter depth a) fun _ => True
  | 0, _, _ => meets_pure trivial
  | _ + 1, a, ha => (hchildren a ha).bind fun _ hbs =>
      meets_visitEach (henter a ha) (fun _ hb => meets_visit hchildren henter hb) hbs

end Action

/-! ## Changing working copies -/

/-- A depot in which something else is stored at a location. -/
def stored (d : Depot) (l : Location) (n : Node) : Depot :=
  { d with disk := { d.disk with top := d.disk.top.put (some n) l } }

theorem perform_changeCopy {α : Type} (s : Repository.Site) (p : Pull α) (d : Depot) :
    (changeCopy s p).perform d =
      match d.workingCopy s with
      | .error e => (.error e, d)
      | .ok old =>
        let new := (p.perform old).2
        let d' := d.stored s.files new.files
        match d'.disk.top.at? s.directory with
        | none => (.error .notRepository, d')
        | some n =>
          ((p.perform old).1,
            d'.stored s.directory (Repository.save old.repository new.repository n)) := by
  unfold changeCopy
  rw [Action.perform_bind]
  have hold : (inspect (·.workingCopy s)).perform d = (d.workingCopy s, d) := rfl
  rw [hold]
  cases d.workingCopy s with
  | error e => rfl
  | ok old =>
    dsimp only
    rw [Action.perform_bind]
    have hput : (put s.files (some (p.perform old).2.files)).perform d =
      (.ok (), d.stored s.files (p.perform old).2.files) := rfl
    rw [hput]
    dsimp only
    rw [Action.perform_bind, save, changeAt, Action.perform_get_bind]
    cases (d.stored s.files (p.perform old).2.files).disk.top.at? s.directory <;> rfl

/-- What changing a working copy does : nothing, or the files are stored and then what changed
about the repository. -/
theorem exists_of_changeCopy {α : Type} (s : Repository.Site) (p : Pull α) (d : Depot) :
    let d' := ((changeCopy s p).perform d).2
    d' = d ∨ ∃ old, d.workingCopy s = .ok old ∧
      let new := (p.perform old).2
      let d₁ := d.stored s.files new.files
      d' = d₁ ∨ ∃ n, d₁.disk.top.at? s.directory = some n ∧
        d' = d₁.stored s.directory (Repository.save old.repository new.repository n) := by
  rw [perform_changeCopy]
  cases hold : d.workingCopy s with
  | error e => exact Or.inl rfl
  | ok old =>
    refine Or.inr ⟨old, rfl, ?_⟩
    dsimp only
    cases hn : (d.stored s.files (p.perform old).2.files).disk.top.at? s.directory with
    | none => exact Or.inl rfl
    | some n => exact Or.inr ⟨n, rfl, rfl⟩

/-- What is apart from the files and from the repository stays as it is. -/
theorem layout_changeCopy {α : Type} {s : Repository.Site} {l : Location}
    (hfiles : Apart s.files l) (hdir : Apart s.directory l) (p : Pull α) (d : Depot) :
    ((changeCopy s p).perform d).2.disk.top.layout l = d.disk.top.layout l := by
  have hstored (d : Depot) {l' : Location} (h : Apart l' l) (n : Node) :
      (d.stored l' n).disk.top.layout l = d.disk.top.layout l :=
    Node.layout_put_of_apart h (some n) d.disk.top
  rcases exists_of_changeCopy s p d with h | ⟨old, -, h | ⟨n, -, h⟩⟩
  · rw [h]
  · rw [h, hstored d hfiles]
  · rw [h, hstored _ hdir, hstored d hfiles]

end Depot

end Scaffold
