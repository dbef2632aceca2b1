import Scaffold.Product
import Scaffold.Proofs.Path.Contained

/-!
# The home directory in paths

A tilde that stands alone, or before a slash, stands for the home directory; anything else is the
path that it is written as (`expandHome_of_ne`). What follows the slash is joined to the home
directory. If it is relative, its parts come after those of the home directory, and a dot in front
says nothing any more (`Path.parts_join_relative`). If it starts with one more slash, it counts
alone, and the home directory is lost (`expandHome_lost`).
-/

namespace Scaffold

open Scaffold.Path

namespace Path

/-- The parts of a relative text, but for a dot in front, are what it says after its beginning. -/
theorem filter_parts_relative {next : String} (h : ¬next.startsWith "/" = true) :
    (Path.mk next).parts.filter (· ≠ .here) = bodyOf next.toList := by
  have hbody : (bodyOf next.toList).filter (· ≠ .here) = bodyOf next.toList := by
    refine List.filter_eq_self.mpr fun c hc => ?_
    have hstep := isStep_of_mem_bodyOf hc
    cases c with
    | here => exact hstep.elim
    | root | up | name n => rfl
  rw [parts, partsOf_eq, List.filter_append, hbody]
  rcases startOf_toList next with ⟨-, habs⟩ | ⟨hstart, -⟩
  · exact (h habs).elim
  · rcases List.mem_pair.mp hstart with hs | hs <;> rw [hs] <;> rfl

/-- A relative text after a path that says something adds its own parts. -/
theorem parts_join_relative {p : Path} (hp : p.text ≠ "") {next : String}
    (h : ¬next.startsWith "/" = true) :
    (p.join next).parts = p.parts ++ (Path.mk next).parts.filter (· ≠ .here) := by
  rw [filter_parts_relative h, join, if_neg h]
  by_cases hend : p.text.endsWith "/" = true
  · obtain ⟨b, hb⟩ := exists_eq_append_slash hend
    have hlist : p.text.toList = b.toList ++ ['/'] := hb ▸ String.toList_append
    rw [if_pos (by simp [hend]), parts, parts, String.toList_append, hlist]
    exact partsOf_append_of_slash b.toList next.toList
  · have hne : p.text.toList ≠ [] := mt String.toList_eq_nil_iff.mp hp
    rw [if_neg (by simp [hp, hend]), parts, parts, String.toList_append, String.toList_append,
      ← partsOf_append_slash hne]
    exact congrArg partsOf (List.append_assoc ..)

end Path

variable {env : Entries String} {h : Path}

/-- The home directory says something. -/
theorem text_ne_of_home (hh : home env = .ok h) : h.text ≠ "" := by
  unfold home at hh
  split at hh
  · rename_i value hvalue
    obtain rfl := Except.ok.inj hh
    have hfilter := (Option.filter_eq_some_iff.mp hvalue).2
    simpa using hfilter
  · cases hh

theorem expandHome_tilde : expandHome env "~" = home env := rfl

theorem expandHome_slash (hh : home env = .ok h) (rest : String) :
    expandHome env ("~/" ++ rest) = .ok (h.join rest) := by
  have hlist : ("~/" ++ rest).toList = '~' :: '/' :: rest.toList := String.toList_append
  unfold expandHome
  rw [hlist, hh]
  simp only [String.ofList_toList]
  rfl

theorem expandHome_of_ne {path : String} (halone : path ≠ "~")
    (hslash : ¬path.startsWith "~/" = true) : expandHome env path = .ok ⟨path⟩ := by
  unfold expandHome
  split
  · rename_i hlist
    exact (halone (String.toList_inj.mp hlist)).elim
  · rename_i rest hlist
    refine (hslash ?_).elim
    rw [String.startsWith_string_iff, hlist]
    exact ⟨rest, rfl⟩
  · rfl

/-- A tilde alone is the home directory. With a slash and what follows it, it is a path whose parts
are those of the home directory and then those that follow, as long as what follows is relative.
What follows and starts with a slash of its own is the path, and the home directory is not. All
other paths are what they are written as. -/
theorem expandHome_parts (hh : home env = .ok h) :
    expandHome env "~" = .ok h ∧
    (∀ rest : String, ¬rest.startsWith "/" = true → ∃ p, expandHome env ("~/" ++ rest) = .ok p ∧
      p.parts = h.parts ++ (Path.mk rest).parts.filter (· ≠ .here)) ∧
    (∀ rest : String, rest.startsWith "/" = true → expandHome env ("~/" ++ rest) = .ok ⟨rest⟩) ∧
    ∀ path : String, path ≠ "~" → ¬path.startsWith "~/" = true →
      expandHome env path = .ok ⟨path⟩ := by
  refine ⟨expandHome_tilde.trans hh, fun rest hrest => ?_, fun rest hrest => ?_,
    fun path halone hslash => expandHome_of_ne halone hslash⟩
  · exact ⟨_, expandHome_slash hh rest, parts_join_relative (text_ne_of_home hh) hrest⟩
  · rw [expandHome_slash hh, join, if_pos hrest]

/-- The home directory of some environment, with paths below it and paths of another user. -/
theorem expandHome_parts_dev :
    let env := [("HOME", "/home/dev")]
    home env = .ok ⟨"/home/dev"⟩ ∧
      (∃ p, expandHome env "~/./a//b" = .ok p ∧
        p.parts = [.root, .name "home", .name "dev", .name "a", .name "b"]) ∧
      expandHome env "~user/a" = .ok ⟨"~user/a"⟩ ∧ expandHome env "~///" = .ok ⟨"//"⟩ := by
  intro env
  have hh : home env = .ok ⟨"/home/dev"⟩ := by decide +kernel
  obtain ⟨-, hrelative, habsolute, hother⟩ := expandHome_parts hh
  obtain ⟨p, hp, hparts⟩ := hrelative "./a//b" (by decide +kernel)
  refine ⟨hh, ⟨p, hp, ?_⟩, hother "~user/a" (by decide) (by decide +kernel),
    habsolute "//" (by decide +kernel)⟩
  rw [hparts]
  decide +kernel

/-- With one slash more the home directory is lost. -/
theorem expandHome_lost :
    let env := [("HOME", "/home/dev")]
    home env = .ok ⟨"/home/dev"⟩ ∧ expandHome env "~//x" = .ok ⟨"/x"⟩ ∧
      ¬(Path.mk "/home/dev").parts <+: (Path.mk "/x").parts := by
  decide +kernel

end Scaffold
