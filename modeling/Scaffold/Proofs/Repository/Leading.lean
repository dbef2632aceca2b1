import Scaffold.Proofs.Disk.Lookup
import Scaffold.Proofs.Repository.Submodule

/-!
# What a site is found by

A name that stands for no link leads to what is there under it, and a name with nothing under it
leads nowhere (`Depot.statFrom_name`, `Depot.statFrom_eq_none`). The text that is written beside the
files of a submodule leads up to the top of the checkout and down into its repository, over
directories alone, so the site of the submodule is found by it (`Depot.siteAt?_of_siteText`). Where
nothing stands beside the files, and they are no repository themselves, no site is found
(`Depot.siteAt?_eq_none`).
-/

namespace Scaffold

open Scaffold.Path
open Disk Node Repository Submodule

namespace Disk

variable {top : Node} {root : Location} {links : Nat} {rest : List Step}

/-- As many double dots as there are names below a directory lead back to it, over directories. -/
theorem walk_ups_of_dir {below : List String} (h : top.layout (root ++ below) = some .dir) :
    walk top true (links + 1) (root ++ below) (List.replicate below.length .up ++ rest) =
      walk top true (links + 1) root rest := by
  induction below using List.reverseRecOn with
  | nil => simp
  | append_singleton below last ih =>
    have habove : top.layout (root ++ below) = some .dir :=
      layout_above h (by rw [← List.append_assoc]; exact List.prefix_append _ _)
    rw [List.length_append, List.length_singleton, List.replicate_succ, List.cons_append,
      walk_up, h]
    dsimp only
    rw [← List.append_assoc, List.dropLast_concat]
    exact ih habove

/-- The names of directories lead there. -/
theorem walk_names_of_dir : ∀ {names : List String} {root : Location},
    top.layout (root ++ names) = some .dir →
      walk top true (links + 1) root (names.map Step.name ++ rest) =
        walk top true (links + 1) (root ++ names) rest
  | [], root, _ => by simp
  | name :: names, root, h => by
    have happend : root ++ name :: names = root ++ [name] ++ names := by simp
    have hroot : top.layout root = some .dir := layout_above h (List.prefix_append _ _)
    have hname : top.layout (root ++ [name]) = some .dir :=
      layout_above h (by rw [happend]; exact List.prefix_append _ _)
    rw [List.map_cons, List.cons_append, walk_name, hroot]
    dsimp only
    rw [hname]
    dsimp only
    rw [happend] at h ⊢
    exact walk_names_of_dir h

/-- The steps of a line with a slash after each name. -/
theorem lineSteps_names {names : List String} (h : ∀ n ∈ names, IsName n ∧ '\n' ∉ n.toList) :
    lineSteps names = names.map Step.name ++ [.here] := by
  have hnil : lineSteps [] = [.here] := rfl
  have hsteps := lineSteps_append (fun n hn => ⟨(h n hn).1.2.2.2, (h n hn).2⟩) []
  rw [List.append_nil, hnil] at hsteps
  rw [hsteps]
  congr 1
  exact List.map_congr_left fun n hn => stepOf_name (h n hn).1

end Disk

namespace Depot

variable {d : Depot} {l : Location} {n : Node} {name : String}

/-! ## Looking up from a location -/

/-- What a path that starts from a location leads to. -/
theorem statFrom_eq {path : String} {steps : List Step} (hp : path ≠ "")
    (hsteps : stepsOf path = (false, steps)) :
    d.statFrom l path = ((walk d.disk.top true (maxLinks + 1) l steps).bind Found.there).toOption := by
  have hresolve : ({ d.disk with here := l } : Disk).resolve true ⟨path⟩ =
      walk d.disk.top true (maxLinks + 1) l steps := by
    rw [resolve, if_neg (by simpa using hp), hsteps]
    rfl
  rw [statFrom, stat_eq, hresolve]

theorem statFrom_eq_walk (hname : IsName name) : d.statFrom l name =
    ((walk d.disk.top true (maxLinks + 1) l [.name name]).bind Found.there).toOption :=
  statFrom_eq hname.1 (stepsOf_name hname)

/-- A name leads to what is there under it, if that is no link. -/
theorem statFrom_name (hname : IsName name) (hn : d.disk.top.at? (l ++ [name]) = some n)
    (hlink : ∀ target, n ≠ .link target) : d.statFrom l name = some (l ++ [name], n) := by
  have hdir : d.disk.top.layout l = some .dir :=
    layout_of_append (r := [name]) (List.cons_ne_nil name []) (by
      rw [layout, hn]
      exact Option.some_ne_none _)
  have hitem : d.disk.top.layout (l ++ [name]) = some n.item := by rw [layout, hn, Option.map_some]
  have hend : walk d.disk.top true (maxLinks + 1) (l ++ [name]) [] = .ok ⟨l ++ [name], some n⟩ := by
    rw [← hn]
    rfl
  rw [statFrom_eq_walk hname, walk_name, hdir]
  dsimp only
  rw [hitem]
  cases n with
  | link target => exact (hlink target rfl).elim
  | dir entries | file bytes executable =>
    dsimp only [item]
    rw [hend]
    rfl

/-- A name with nothing under it leads nowhere. -/
theorem statFrom_eq_none (hname : IsName name) (hn : d.disk.top.at? (l ++ [name]) = none) :
    d.statFrom l name = none := by
  rw [statFrom_eq_walk hname, walk_name]
  cases d.disk.top.layout l with
  | none => rfl
  | some i =>
    cases i with
    | file bytes executable | link target => rfl
    | dir =>
      dsimp only
      rw [layout_eq_none.mpr hn]
      rfl

/-! ## Sites -/

/-- The repository of a submodule is found by the text that is written beside its files. -/
theorem directoryOf?_of_siteText {root w v : Location} (hw : repositoryDirName ∉ w)
    (hv : ∀ n ∈ v, IsName n ∧ '\n' ∉ n.toList)
    (hfile : d.disk.top.at? (root ++ w ++ [repositoryDirName]) =
      some (textFile (siteText ⟨root ++ repositoryDirName :: v, root ++ w⟩)))
    (hdir : d.disk.top.layout (root ++ repositoryDirName :: v) = some .dir) :
    d.directoryOf? (root ++ w) = some (root ++ repositoryDirName :: v) := by
  have hfiles : d.disk.top.layout (root ++ w) = some .dir :=
    layout_of_append (r := [repositoryDirName]) (List.cons_ne_nil _ []) (by
      rw [layout, hfile]
      exact Option.some_ne_none _)
  obtain ⟨entries, hentries⟩ := layout_eq_dir.mp hdir
  have hdirs : ∀ n ∈ repositoryDirName :: v, IsName n ∧ '\n' ∉ n.toList := by
    rintro n (_ | ⟨_, hn⟩)
    · decide +kernel
    · exact hv n hn
  have hsteps := stepsOf_siteLine w v
  rw [lineSteps_names hv, ← List.cons_append, ← List.map_cons] at hsteps
  have hpath : String.ofList (((w.map (fun _ => "..") ++ repositoryDirName :: v).flatMap
      fun n => n.toList ++ ['/']).takeWhile (· ≠ '\n')) ≠ "" := by
    intro hnil
    rw [hnil] at hsteps
    have hlength := congrArg (fun steps => steps.2.length) hsteps
    simp [stepsOf] at hlength
  -- The way goes up to the top of the checkout, and down to the repository.
  have hwalk : walk d.disk.top true (maxLinks + 1) (root ++ w)
      (List.replicate w.length .up ++ ((repositoryDirName :: v).map Step.name ++ [.here])) =
      .ok ⟨root ++ repositoryDirName :: v, some (.dir entries)⟩ := by
    rw [walk_ups_of_dir hfiles, walk_names_of_dir hdir, walk_cons, hdir, ← hentries]
    rfl
  have hfound := (statFrom_eq (d := d) (l := root ++ w) hpath hsteps)
  rw [hwalk] at hfound
  unfold directoryOf?
  rw [statFrom_name isName_repositoryDirName hfile (by simp [textFile])]
  dsimp only [textFile, Option.bind_eq_bind, Option.bind_some]
  rw [fromUTF8?_toUTF8, Option.bind_some, siteText_eq hw, without?_siteLead, Option.bind_some, hfound]
  rfl

/-- The site of a submodule is found from its files. -/
theorem siteAt?_of_siteText {root w v : Location} (hw : repositoryDirName ∉ w)
    (hv : ∀ n ∈ v, IsName n ∧ '\n' ∉ n.toList)
    (hfile : d.disk.top.at? (root ++ w ++ [repositoryDirName]) =
      some (textFile (siteText ⟨root ++ repositoryDirName :: v, root ++ w⟩)))
    (hdir : d.disk.top.at? (root ++ repositoryDirName :: v) = some n)
    (hrepo : isRepository n = true) :
    d.siteAt? (root ++ w) = some ⟨root ++ repositoryDirName :: v, root ++ w⟩ := by
  have hpart : "HEAD" ∈ headFile ++ commitsDir ++ refsDir := by decide
  obtain ⟨m, hm⟩ := exists_part hrepo hpart
  have htop : d.disk.top.layout (root ++ repositoryDirName :: v) = some .dir :=
    layout_of_append (r := ["HEAD"]) (List.cons_ne_nil _ []) (by
      rw [layout_append hdir, layout, hm]
      exact Option.some_ne_none _)
  have hhas : d.hasRepository (root ++ repositoryDirName :: v) = true := by
    rw [hasRepository, hdir]
    exact hrepo
  rw [siteAt?, directoryOf?_of_siteText hw hv hfile htop, Option.filter, if_pos hhas]

/-- No site is found where nothing stands beside the files, if they are no repository. -/
theorem siteAt?_eq_none (hbeside : d.disk.top.at? (l ++ [repositoryDirName]) = none)
    (hno : d.hasRepository l = false) : d.siteAt? l = none := by
  have hnone : d.directoryOf? l = none := by
    rw [directoryOf?, statFrom_eq_none isName_repositoryDirName hbeside]
    rfl
  rw [siteAt?, hnone, Option.filter_none, hno]
  rfl

end Depot

end Scaffold
