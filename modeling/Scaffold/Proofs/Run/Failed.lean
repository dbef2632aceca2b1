import Scaffold.Proofs.Run.Party

/-!
# Runs that fail early

A run that ends before it copies has not written for the project. What it may have done by then
is to fetch the template and to ask its questions. So the place of the project is as it was if it
is clear of what a fetch changes and whoever is asked spares it (`Run.newProject_failed`). Where
the guard refuses the directory, nothing was done at all.

Without these conditions it may be otherwise : a checkout may have its files in the directory of
the project, and a pull writes there (`newProject_failed_changed`).
-/

namespace Scaffold

open Disk

variable {σ : Type}

/-! ## Where a project is -/

/-- The places of a project : the one that its path spells, and the one that the path leads to, or
would lead to if the directory could be made. -/
def ProjectDir.places (p : ProjectDir) (d : Disk) : List Location :=
  p.path.parts.filterMap (fun | .name n => some n | _ => none) ::
    ((((Action.makeDirs p.path).perform d).2.follow true p.path.parts).toOption.map
      (·.location)).toList

/-! ## The steps of a run -/

/-- Whether a run failed in writing the files of the project. -/
def RunFailure.isOfWriting : RunFailure → Bool
  | copying _ | filling _ => true
  | _ => false

namespace Run

theorem perform_bind {α β : Type} (r : Run α) (f : α → Run β) (d : Depot) :
    (r >>= f).perform d =
      match r.perform d with
      | (.ok x, d') => (f x).perform d'
      | (.error e, d') => (.error e, d') := by
  simp only [perform, bind, ExceptT.bind, ExceptT.mk, ExceptT.run, StateT.run, StateT.bind,
    ExceptT.bindCont]
  cases h : r d with
  | mk result d' => cases result <;> rfl

theorem perform_get_bind {β : Type} (f : Depot → Run β) (d : Depot) :
    (get >>= f).perform d = (f d).perform d := rfl

theorem perform_set_bind {β : Type} (f : PUnit → Run β) (d d' : Depot) :
    (set d' >>= f).perform d = (f ⟨⟩).perform d' := rfl

theorem perform_onDisk_bind {α β : Type} (f : Disk → α × Disk) (g : α → Run β) (d : Depot) :
    (onDisk f >>= g).perform d = (g (f d.disk).1).perform { d with disk := (f d.disk).2 } := rfl

theorem perform_orEnd {α : Type} (toFailure : Failure → RunFailure) (r : Except Failure α)
    (d : Depot) : (orEnd toFailure r).perform d = (r.mapError toFailure, d) := rfl

/-- A step that may end the run, and the steps after it. -/
theorem perform_orEnd_bind {α β : Type} (toFailure : Failure → RunFailure) (r : Except Failure α)
    (f : α → Run β) (d : Depot) :
    (orEnd toFailure r >>= f).perform d =
      match r with
      | .ok x => (f x).perform d
      | .error e => (.error (toFailure e), d) := by
  rw [perform_bind, perform_orEnd]
  cases r <;> rfl

/-- What a run fetches. -/
def fetched? (p : Product) (env : Entries String) (identifier : String) (d : Depot) :
    Option (CheckoutCache × String) := do
  let paths ← (TemplatePaths.of p env).toOption
  let resolver ← (p.resolver env).toOption
  match TemplateSource.locate d.disk paths.localRoot resolver p.manifestFile identifier with
  | .here _ => none
  | .remote url => if d.canFetch url then some (⟨paths.cacheRoot⟩, url) else none

/-- A fetch in a run. -/
theorem depot_fetch (c : CheckoutCache) (url : String) (d : Depot) :
    ((fetch c url).perform d).2 = if d.canFetch url then (c.fetch url d).2 else d := by
  unfold fetch
  rw [perform_get_bind]
  cases c.fetch url d with
  | mk fetched d' =>
    split
    · dsimp only
      rw [perform_set_bind, perform_orEnd_bind]
      cases fetched.result <;> rfl
    · split <;> rfl

/-- Finding a template changes what the fetch changes. -/
theorem depot_findTemplate (p : Product) (env : Entries String) (identifier : String)
    (d : Depot) :
    ((findTemplate p env identifier).perform d).2 =
      (fetched? p env identifier d).elim d fun (c, url) => (c.fetch url d).2 := by
  unfold findTemplate fetched?
  rw [perform_orEnd_bind]
  cases TemplatePaths.of p env with
  | error e => rfl
  | ok paths =>
    dsimp only
    rw [perform_orEnd_bind]
    cases p.resolver env with
    | error e => rfl
    | ok resolver =>
      dsimp only
      rw [perform_get_bind]
      simp only [Except.toOption, Option.bind_eq_bind, Option.bind_some]
      cases TemplateSource.locate d.disk paths.localRoot resolver p.manifestFile identifier with
      | here directory => rfl
      | remote url =>
        dsimp only
        rw [depot_fetch]
        split <;> rfl

/-- A run that fails in writing says so. -/
theorem isOfWriting_of_write {env : Entries String} {t : Template} {answers : AnswerMap}
    {d d' : Depot} {f : RunFailure} (h : (write env t answers).perform d = (.error f, d')) :
    f.isOfWriting = true := by
  unfold write at h
  rw [perform_onDisk_bind, perform_orEnd_bind] at h
  split at h
  · rw [perform_onDisk_bind, perform_orEnd_bind] at h
    split at h
    · cases (Prod.mk.inj h).1
    · obtain ⟨hf, -⟩ := Prod.mk.inj h
      exact Except.error.inj hf ▸ rfl
  · obtain ⟨hf, -⟩ := Prod.mk.inj h
    exact Except.error.inj hf ▸ rfl

/-- The template that a run asks the questions of. -/
def loaded? (p : Product) (env : Entries String) (args : NewProject) (d : Depot) :
    Option Template :=
  let project := ProjectDir.ofArgument d.disk p.projectFile p.manifestFile ⟨args.directory⟩
  match (findTemplate p env args.template).perform d with
  | (.ok directory, d') =>
    (Template.load d'.disk args.template directory project.path p.manifestFile).toOption
  | _ => none

/-- A run by its steps : the guard, the template, its manifest, its questions and its files. -/
theorem perform_newProject (p : Product) (env : Entries String) (party : Party σ)
    (args : NewProject) (d : Depot) :
    (newProject p env party args).perform d =
      let project := ProjectDir.ofArgument d.disk p.projectFile p.manifestFile ⟨args.directory⟩
      match project.guard d.disk with
      | .error e => (.error (.step e), d)
      | .ok _ =>
        match (findTemplate p env args.template).perform d with
        | (.error e, d') => (.error e, d')
        | (.ok directory, d') =>
          match Template.load d'.disk args.template directory project.path p.manifestFile with
          | .error e => (.error (.loading args.template e), d')
          | .ok t => (ask party env t >>= write env t).perform d' := by
  unfold newProject
  rw [perform_get_bind, perform_orEnd_bind]
  dsimp only
  split
  · rename_i hguard
    rw [hguard, perform_bind]
    cases (findTemplate p env args.template).perform d with
    | mk result d' =>
      cases result with
      | error e => rfl
      | ok directory =>
        dsimp only
        rw [perform_get_bind, perform_orEnd_bind]
        split
        · rename_i t hload
          rw [hload]
        · rename_i e hload
          rw [hload]
  · rename_i e hguard
    rw [hguard]

/-- Finding the template changes nothing at a place that is clear of the fetch. -/
theorem sameAt_findTemplate {p : Product} {env : Entries String} {identifier : String}
    {d : Depot} {place : Location}
    (hclear : ∀ c url, fetched? p env identifier d = some (c, url) → c.Clear url d place) :
    SameAt place d.disk ((findTemplate p env identifier).perform d).2.disk := by
  rw [depot_findTemplate]
  cases hfetch : fetched? p env identifier d with
  | none => exact .refl place d.disk
  | some what =>
    obtain ⟨c, url⟩ := what
    rw [Option.elim_some]
    exact CheckoutCache.sameAt_fetch (hclear c url hfetch) _

/-- A run that fails before it copies changes nothing at the places of the project and below them,
where the place is clear of what a fetch of the template changes and whoever is asked its questions
spares it. If the guard refuses the project, the run changes nothing at all. -/
theorem newProject_failed (p : Product) (env : Entries String) (party : Party σ)
    (args : NewProject) {d d' : Depot} {f : RunFailure}
    (h : (newProject p env party args).perform d = (.error f, d')) (hf : f.isOfWriting = false) :
    let project := ProjectDir.ofArgument d.disk p.projectFile p.manifestFile ⟨args.directory⟩
    (∀ e, project.guard d.disk = .error e → f = .step e ∧ d' = d) ∧
      ∀ place ∈ project.places d.disk,
        (∀ c url, fetched? p env args.template d = some (c, url) → c.Clear url d place) →
        (∀ t, loaded? p env args d = some t → party.Spares (t.MayAsk env) place) →
        SameAt place d.disk d'.disk := by
  intro project
  have hproject : ProjectDir.ofArgument d.disk p.projectFile p.manifestFile ⟨args.directory⟩ =
    project := rfl
  rw [perform_newProject] at h
  dsimp only at h
  rw [hproject] at h
  clear_value project
  refine ⟨fun e he => ?_, fun place _ hclear hspares => ?_⟩
  · rw [he] at h
    obtain ⟨hf, rfl⟩ := Prod.mk.inj h
    exact ⟨(Except.error.inj hf).symm, rfl⟩
  · -- The run ended at the guard, at the template, at its manifest or at its questions.
    have hfound := sameAt_findTemplate hclear
    split at h
    · rw [← (Prod.mk.inj h).2]
      exact .refl place d.disk
    · split at h
      · rename_i e d₁ hfind
        rw [hfind] at hfound
        exact (Prod.mk.inj h).2 ▸ hfound
      · rename_i directory d₁ hfind
        rw [hfind] at hfound
        split at h
        · exact (Prod.mk.inj h).2 ▸ hfound
        · rename_i t hload
          have hloaded : loaded? p env args d = some t := by
            simp only [loaded?, hfind, hproject, hload, Except.toOption]
          have hasked := (hspares t hloaded).ask d₁
          rw [perform_bind] at h
          split at h
          · rw [isOfWriting_of_write h] at hf
            cases hf
          · rename_i e d₂ hask
            rw [hask] at hasked
            exact (Prod.mk.inj h).2 ▸ hfound.trans hasked

end Run

/-! ## A checkout in the directory of a project -/

instance decEqExcept {ε α : Type} [DecidableEq ε] [DecidableEq α] : DecidableEq (Except ε α)
  | .error e, .error e' => decidable_of_iff (e = e') (by simp)
  | .ok x, .ok y => decidable_of_iff (x = y) (by simp)
  | .error _, .ok _ => isFalse nofun
  | .ok _, .error _ => isFalse nofun

/-- Where templates and checkouts are in the samples. -/
def sampleEnv : Entries String :=
  [("QUARRY_TEMPLATES_CACHE", "/cache"), ("QUARRY_TEMPLATES_LOCAL", "/local")]

/-- What the samples ask for. -/
def sampleArgs : NewProject := { directory := "/app", template := "/srv/origin" }

/-- The project of the samples. -/
def sampleProject (d : Depot) : ProjectDir :=
  .ofArgument d.disk Product.quarry.projectFile Product.quarry.manifestFile ⟨sampleArgs.directory⟩

/-- What comes of a sample, where nothing is typed. -/
def sampleRun (d : Depot) : Except RunFailure Unit × Depot :=
  (Run.newProject .quarry sampleEnv (Terminal.party sampleEnv []) sampleArgs).perform d

/-- A repository whose head is on a branch at a commit. -/
def sampleRepository (id : CommitId) (origin : Option String) : Repository where
  head := some (.branch "main")
  branches := [("main", id)]
  commits := List.range (id + 1)
  origin := origin
  tracked := some id

/-- A disk where the checkout is a link to the directory of the project, in which the files of
the checkout are. The directory of checkouts is elsewhere, and the repository is in it. There is a
newer version to be fetched. -/
def sharedDepot : Depot where
  disk :=
    { top := .dir
        [("app", .dir [(".git", .file "gitdir: ../cache/kept\n".toUTF8 false)]),
          ("cache", .dir
            [("e8a4999ef45acc2083835ef41eb7cba5", .link "../app"),
              ("kept", Repository.create (sampleRepository 0 (some "/srv/origin")))]),
          ("srv", .dir [("origin", .dir
            [(".git", Repository.create (sampleRepository 1 none))])])] }
  history :=
    { commits :=
        [{ snapshot := [("a.txt", .file "1".toUTF8 false)], parents := [], message := "one" },
          { snapshot := [("a.txt", .file "2".toUTF8 false)], parents := [0], message := "two" }] }

theorem places_sharedDepot :
    (sampleProject sharedDepot).places sharedDepot.disk = [["app"], ["app"]] := by decide +kernel

/-- A run that fails since the template has no manifest, and has pulled the newer version into the
directory of the project by then. The directory of checkouts is not in the project. -/
theorem newProject_failed_changed :
    (∃ f, (sampleRun sharedDepot).1 = .error f ∧ f.isOfWriting = false) ∧
      (∃ paths, TemplatePaths.of .quarry sampleEnv = .ok paths ∧
        ∃ root n, sharedDepot.disk.stat paths.cacheRoot = .ok (root, n) ∧
          ∀ place ∈ (sampleProject sharedDepot).places sharedDepot.disk, ¬place <+: root) ∧
      ∃ place ∈ (sampleProject sharedDepot).places sharedDepot.disk,
        ¬SameAt place sharedDepot.disk (sampleRun sharedDepot).2.disk := by
  have hpaths : TemplatePaths.of .quarry sampleEnv = .ok ⟨⟨"/local"⟩, ⟨"/cache"⟩⟩ := by
    decide +kernel
  have hrun : (sampleRun sharedDepot).1 = .error (.loading "/srv/origin" (.manifestNotFound
        ⟨"/cache/e8a4999ef45acc2083835ef41eb7cba5/template.yml"⟩)) ∧
      (sampleRun sharedDepot).2.disk.top.layout ["app", "a.txt"] =
        some (.file "2".toUTF8 false) := by decide +kernel
  refine ⟨⟨_, hrun.1, rfl⟩, ⟨_, hpaths, ["cache"], _, rfl, ?_⟩, ["app"], ?_, fun hsame => ?_⟩
  · rw [places_sharedDepot]
    decide
  · rw [places_sharedDepot]
    decide
  · have hold : sharedDepot.disk.top.layout ["app", "a.txt"] = none := rfl
    have h := hsame ["a.txt"]
    rw [List.singleton_append, hrun.2, hold] at h
    cases h

/-! ## A checkout that is elsewhere -/

/-- A disk with a directory of the project in which there is a file, and no checkouts. The
template has a question with a gate that makes no sense. -/
def apartDepot : Depot where
  disk :=
    { top := .dir
        [("app", .dir [("a.txt", .file "0".toUTF8 false)]),
          ("cache", .dir []),
          ("srv", .dir [("origin", .dir
            [(".git", Repository.create (sampleRepository 0 none))])])] }
  history :=
    { commits :=
        [{ snapshot := [("template.yml",
             .file "prompt: [\x7bname: A, type: Input, when: (\x7d]\n".toUTF8 false)]
           parents := []
           message := "one" }] }

/-- There is no file named as a head. -/
theorem tidy_apartDepot : apartDepot.history.Tidy := by
  have hlacks (bytes : ByteArray) :
      Snapshot.Lacks "HEAD" ("template.yml", .file bytes false) := by
    refine ⟨?_, ?_, ?_⟩ <;> dsimp only <;> decide +kernel
  refine ⟨"HEAD", by decide, fun id e he => ?_⟩
  cases id with
  | zero => exact List.mem_singleton.mp he ▸ hlacks _
  | succ id => cases he

/-- The template would be cloned apart from the project. -/
theorem clear_apartDepot :
    CheckoutCache.Clear ⟨⟨"/cache"⟩⟩ "/srv/origin" apartDepot ["app"] where
  there h := by
    have hno : apartDepot.disk.exists? ((⟨⟨"/cache"⟩⟩ : CheckoutCache).path "/srv/origin") =
      false := by decide +kernel
    rw [hno] at h
    cases h
  root _ ps l hps hleads hpre := by
    have hnone : ∀ ps ∈ (Path.mk "/cache").parts.inits,
        (((Action.makeDirs ⟨"/cache"⟩).perform apartDepot.disk).2.follow true ps).toOption.all
          (fun found => decide ¬["app"] <+: found.location) = true := by decide +kernel
    obtain ⟨entries, hleads⟩ := hleads
    have h := hnone ps ((List.mem_inits ..).mpr hps)
    rw [hleads] at h
    exact absurd hpre (of_decide_eq_true h)
  missing _ l hl := by
    have hapart : ((((Action.makeDirs ⟨"/cache"⟩).perform apartDepot.disk).2.resolve true
        ((⟨⟨"/cache"⟩⟩ : CheckoutCache).path "/srv/origin")).toOption.all
          fun found => decide (Apart found.location ["app"])) = true := by decide +kernel
    rw [hl] at hapart
    exact of_decide_eq_true hapart
  tidy _ := tidy_apartDepot

/-- A run that fails at a question of a template that was cloned by then. The project is as it
was. -/
theorem newProject_failed_apart :
    (∃ f, (sampleRun apartDepot).1 = .error f ∧ f.isOfWriting = false) ∧
      ["app"] ∈ (sampleProject apartDepot).places apartDepot.disk ∧
      (∀ c url, Run.fetched? .quarry sampleEnv sampleArgs.template apartDepot = some (c, url) →
        c.Clear url apartDepot ["app"]) ∧
      (∀ t, Run.loaded? .quarry sampleEnv sampleArgs apartDepot = some t →
        (Terminal.party sampleEnv []).Spares (t.MayAsk sampleEnv) ["app"]) ∧
      SameAt ["app"] apartDepot.disk (sampleRun apartDepot).2.disk := by
  have hplaces : (sampleProject apartDepot).places apartDepot.disk = [["app"], ["app"]] := by
    decide +kernel
  have hplace : ["app"] ∈ (sampleProject apartDepot).places apartDepot.disk := by
    rw [hplaces]
    decide
  have hrun : (sampleRun apartDepot).1 = .error (.step (.gate (.unreadable "(" .malformed))) ∧
      (Run.loaded? .quarry sampleEnv sampleArgs apartDepot).all
        (fun t => t.manifest.prompt.questions.all (·.kind ≠ .editor)) = true := by decide +kernel
  have hfetched : Run.fetched? .quarry sampleEnv sampleArgs.template apartDepot =
      some (⟨⟨"/cache"⟩⟩, "/srv/origin") := by decide +kernel
  have hclear (c : CheckoutCache) (url : String)
      (h : Run.fetched? .quarry sampleEnv sampleArgs.template apartDepot = some (c, url)) :
      c.Clear url apartDepot ["app"] := by
    obtain ⟨rfl, rfl⟩ := Prod.mk.inj (Option.some.inj (hfetched.symm.trans h))
    exact clear_apartDepot
  have hspares (t : Template) (h : Run.loaded? .quarry sampleEnv sampleArgs apartDepot = some t) :
      (Terminal.party sampleEnv []).Spares (t.MayAsk sampleEnv) ["app"] := by
    refine (Terminal.spares_party sampleEnv [] ["app"]).mono fun q hq => ?_
    have hall := hrun.2
    rw [h] at hall
    exact of_decide_eq_true (List.all_eq_true.mp hall q hq.mem)
  refine ⟨⟨_, hrun.1, rfl⟩, hplace, hclear, hspares, ?_⟩
  exact (Run.newProject_failed .quarry sampleEnv (Terminal.party sampleEnv []) sampleArgs
    (Prod.ext hrun.1 rfl) rfl).2 ["app"] hplace hclear hspares

end Scaffold
