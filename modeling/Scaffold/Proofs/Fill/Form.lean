import Scaffold.Proofs.Fill.Reference
import Scaffold.Proofs.Stencil.Form

/-!
# Filling in forms

A file of a project may be a form : text with holes for answers. A rule that fills such a file
writes the answers into the holes and leaves every other character where it is
(`fillRules_form`). An answer is written as it was given, with all braces, characters of markup and
line breaks in it, whatever the file is called, and a file without holes stays as it is.
-/

namespace Scaffold

open Scaffold.Path Disk Stencil

/-- A form is rendered as its texts with the answers in its holes. -/
theorem FillRule.render_form {c : Context} (f : Form) {values : String → String}
    (hvalues : ∀ h ∈ f.holes, Entries.get? h.2.text c.answers = some (.text (values h.2.text))) :
    FillRule.render c f.text = .ok (f.filled values) :=
  f.render false rfl fun h hh => by rw [Value.findKey_answers, hvalues h hh]; rfl

/-! ## Files -/

theorem Stencil.Form.filled_eq_text {f : Form} (h : f.holes = []) (values : String → String) :
    f.filled values = f.text := by
  rw [filled, text, h, filledOf, charsOf]

variable {t : Template} {answers : AnswerMap} {env : Entries String}

theorem FillRule.evaluate_of_isOpen {r : FillRule} (h : r.isOpen t answers env = true) :
    Gate.evaluate (r.context t answers env) r.gate = .ok true := by
  unfold isOpen at h
  split at h
  · assumption
  · cases h

/-- A rule with an open gate, for a file that is a form and has text answers for its holes, puts
them into the holes, and the pass goes on. Nothing else is changed in the file, and no other file
is : without holes, nothing changes at all. -/
theorem fillRules_form {r : FillRule} (hopen : r.isOpen t answers env = true) {d : Disk}
    {path : Path} (hpath : t.project.containedJoin r.file = some path) {l : Location}
    {executable : Bool} {f : Form} (hstat : d.stat path = .ok (l, .file f.text.toUTF8 executable))
    (values : String → String)
    (hvalues : ∀ h ∈ f.holes, Entries.get? h.2.text answers = some (.text (values h.2.text))) :
    ∃ d', (∀ rest filled, fillRules t answers env (r :: rest) filled d =
        fillRules t answers env rest (filled ++ [r]) d') ∧
      d'.stat path = .ok (l, .file (f.filled values).toUTF8 executable) ∧
      (∀ other, other ≠ l → d'.top.layout other = d.top.layout other) ∧
      (f.holes = [] → ∀ other, d'.top.layout other = d.top.layout other) := by
  have hl := at?_of_stat hstat
  let d' : Disk := { d with top := d.top.put (some (.file (f.filled values).toUTF8 executable)) l }
  have hlay : d'.top.layout = d.top.layout.set l (.file (f.filled values).toUTF8 executable) :=
    Node.layout_put_file hl _ _
  have hgrows : d.top.layout.Grows d'.top.layout :=
    (stored_of_resolve (stat_eq_ok.mp hstat) rfl (f.filled values).toUTF8 executable).2.1
  have hgate := FillRule.evaluate_of_isOpen hopen
  have hrun : r.run t (r.context t answers env) d = .ok d' := by
    rw [FillRule.run_eq, hpath]
    dsimp only
    rw [hstat]
    dsimp only
    rw [fromUTF8?_toUTF8]
    dsimp only
    rw [FillRule.render_form f hvalues]
  refine ⟨d', fun rest filled => ?_, ?_, fun other hother => ?_, fun hholes other => ?_⟩
  · rw [fillRules]
    simp only [hgate, hrun]
  · refine stat_of_grows hgrows rfl hstat (Node.layout_eq_file.mp ?_)
    rw [hlay, Layout.set, if_pos rfl]
  · rw [hlay, Layout.set, if_neg hother]
  · rw [hlay, Layout.set, Stencil.Form.filled_eq_text hholes]
    split
    · rename_i heq
      rw [heq, Node.layout_eq_file.mpr hl]
    · rfl

/-! ## A small form -/

/-- A form with braces and line breaks around its hole. -/
def greetingForm : Form where
  holes := [("\x7b \r\n".toList, ⟨'N', ['a', 'm', 'e'], by decide, List.all_eq_true.mp (by decide)⟩)]
  last := "\x7d\r\n\n".toList
  unmarked := List.forall_mem_singleton.mpr (by decide)
  unmarkedLast := by decide

/-- A project with the form in a file of markup. -/
def greetingDisk : Disk :=
  { top := .dir [("app", .dir [("a.html", .file greetingForm.text.toUTF8 true)])] }

/-- A rule for the form. -/
def greetingRule : FillRule := { file := "./a.html" }

/-- An answer that looks like a region and like markup. -/
def greetingName : String := "<b>\x7b\x7b 1 \x7d\x7d\n"

/-- The answer goes into the form as it is. -/
theorem fillRules_form_greeting :
    greetingForm.text = "\x7b \r\n\x7b\x7b Answers.Name \x7d\x7d\x7d\r\n\n" ∧
      ∃ d', fillRules fillTemplate [("Name", .text greetingName)] [] [greetingRule] []
          greetingDisk = (.ok [greetingRule], d') ∧
        d'.top.layout ["app", "a.html"] =
          some (.file "\x7b \r\n<b>\x7b\x7b 1 \x7d\x7d\n\x7d\r\n\n".toUTF8 true) := by
  refine ⟨by decide +kernel, ?_⟩
  have hopen : greetingRule.isOpen fillTemplate [("Name", .text greetingName)] [] = true := rfl
  have hpath : fillTemplate.project.containedJoin greetingRule.file = some ⟨"/app/a.html"⟩ := by
    decide +kernel
  have hstat : greetingDisk.stat ⟨"/app/a.html"⟩ =
      .ok (["app", "a.html"], .file greetingForm.text.toUTF8 true) := rfl
  obtain ⟨d', hpass, hfile, -⟩ := fillRules_form hopen hpath hstat (fun _ => greetingName)
    (List.forall_mem_singleton.mpr rfl)
  have hfilled : greetingForm.filled (fun _ => greetingName) =
      "\x7b \r\n<b>\x7b\x7b 1 \x7d\x7d\n\x7d\r\n\n" := by decide +kernel
  refine ⟨d', hpass [] [], ?_⟩
  rw [Node.layout_eq_file.mpr (at?_of_stat hfile), hfilled]

end Scaffold
