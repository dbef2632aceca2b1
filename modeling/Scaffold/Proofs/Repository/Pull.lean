import Scaffold.Proofs.Repository.Ancestry
import Scaffold.Repository.Pull

/-!
# What comes of a pull

A pull of a working copy whose head is at a commit ends in one of five ways (`Pull.Comes`). It may
stop before anything moves, it may find that the commit of the head already comes after what is
incoming, or that neither comes after the other, it may move the branch of the head and the files
there, or it may move the branch and then stop with the files as they were. `Pull.comes_run` goes
through the steps up to where it is known what is incoming, `Pull.comes_settle` through comparing it
with the head, and `Pull.comes_fastForward` through moving the branch.
-/

namespace Scaffold

open Repository

/-- Whether a repository is like another one, but for the commits that it holds and what the last
fetch brought. -/
structure Repository.Like (r r' : Repository) : Prop where
  head : r'.head = r.head
  branches : r'.branches = r.branches
  origin : r'.origin = r.origin
  tracked : r'.tracked = r.tracked

/-- Whether a repository is like another one with the branch of its head moved to a commit. -/
structure Repository.Moved (branch : String) (id : CommitId) (r r' : Repository) : Prop where
  on : r.head = some (.branch branch)
  head : r'.head = r.head
  branches : r'.branches = Entries.insert branch id r.branches
  origin : r'.origin = r.origin

theorem Repository.Like.refl (r : Repository) : r.Like r := ⟨rfl, rfl, rfl, rfl⟩

theorem Repository.Like.namedHead?_eq {r r' : Repository} (h : r.Like r') :
    r'.namedHead? = r.namedHead? := by
  rw [namedHead?, namedHead?, h.head, h.branches]

theorem Repository.namedHead?_of_branch {branch : String} {r : Repository}
    (h : r.head = some (.branch branch)) :
    r.namedHead? = (Entries.get? branch r.branches).map (branch, ·) := by
  rw [namedHead?, h]
  rfl

theorem Repository.Moved.namedHead?_eq {branch : String} {id : CommitId} {r r' : Repository}
    (h : Moved branch id r r') : r'.namedHead? = some (branch, id) := by
  rw [namedHead?_of_branch (h.head.trans h.on), h.branches, Entries.get?_insert, if_pos rfl]
  rfl

namespace Pull

variable {α β : Type}

/-! ## Single steps -/

theorem perform_bind (a : Pull α) (f : α → Pull β) (w : WorkingCopy) :
    (a >>= f).perform w =
      match a.perform w with
      | (.ok x, w') => (f x).perform w'
      | (.error e, w') => (.error e, w') := by
  simp only [perform, bind, ExceptT.bind, ExceptT.mk, ExceptT.run, StateT.run, StateT.bind,
    ExceptT.bindCont]
  cases h : a w with
  | mk result w' => cases result <;> rfl

theorem perform_step (s : Surroundings) (name : Step) (p : Pull α) (w : WorkingCopy) :
    (step s name p).perform w =
      if s.refuses name = true then (.error .refused, w) else p.perform w := by
  unfold step
  split <;> rfl

theorem perform_step_bind (s : Surroundings) (name : Step) (p : Pull α) (f : α → Pull β)
    (w : WorkingCopy) :
    (step s name p >>= f).perform w =
      if s.refuses name = true then (.error .refused, w) else (p >>= f).perform w := by
  rw [perform_bind, perform_step]
  by_cases h : s.refuses name = true
  · rw [if_pos h, if_pos h]
  · rw [if_neg h, if_neg h, perform_bind]

theorem perform_need (fault : Fault) (f : Repository → Option α) (w : WorkingCopy) :
    (need fault f).perform w = ((f w.repository).elim (.error fault) .ok, w) := by
  have hget : (get : Pull WorkingCopy).perform w = (.ok w, w) := rfl
  rw [need, perform_bind, hget]
  dsimp only
  cases f w.repository <;> rfl

theorem perform_change (f : Repository → Repository) (w : WorkingCopy) :
    (change f).perform w = (.ok (), { w with repository := f w.repository }) := rfl

theorem perform_fetch (s : Surroundings) (url name : String) (w : WorkingCopy) :
    (fetch s url name).perform w =
      match s.look url with
      | .error f => (.error f, w)
      | .ok remote =>
        (.ok (), { w with repository := { w.repository with
          fetched := remote.tip? name
          commits := union w.repository.commits remote.commits } }) := by
  unfold fetch
  cases s.look url <;> rfl

theorem perform_checkOutHead (h : History) (w : WorkingCopy) :
    (checkOutHead h).perform w =
      (.ok (), { repository := { w.repository with tracked := w.repository.headCommit? }
                 files := Snapshot.checkOut (w.repository.snapshot h)
                   (w.repository.headCommit?.elim [] h.snapshot) w.files }) := rfl

/-! ## A whole pull -/

/-- All steps of a pull, in order. -/
def Step.all : List Step :=
  [.readHead, .findOrigin, .fetch, .readFetched, .compare, .findBranch, .moveBranch, .moveHead,
    .checkOut]

theorem Step.mem_all (step : Step) : step ∈ all := by cases step <;> decide

/-- The steps of a pull before it knows what is incoming. -/
def Step.reading : List Step := [.readHead, .findOrigin, .fetch, .readFetched]

/-- The commit that a pull of a branch finds where the repository is fetched from, if no step on the
way to it is refused. -/
def incoming? (s : Surroundings) (r : Repository) (branch : String) : Option CommitId :=
  if Step.reading.any s.refuses then none
  else (r.origin.bind fun url => (s.look url).toOption).bind (·.tip? branch)

theorem incoming?_of_refused {s : Surroundings} {name : Step} (hname : name ∈ Step.reading)
    (h : s.refuses name = true) (r : Repository) (branch : String) : incoming? s r branch = none :=
  if_pos (List.any_eq_true.mpr ⟨name, hname, h⟩)

/-- The steps of a pull that know what is incoming, up to the one that moves the branch. -/
def Step.moving : List Step := [.compare, .findBranch, .moveBranch]

/-- The ways in which a pull of a working copy may end, whose head has a name and is at a commit. -/
inductive Comes (s : Surroundings) (branch : String) (ours : CommitId) (w : WorkingCopy) :
    Except Fault Outcome → WorkingCopy → Prop
  /-- Nothing is found, or a step after that and before the branch moves is refused, or there is no
  branch to be moved. -/
  | stopped {f : Fault} {r : Repository} :
    incoming? s w.repository branch = none ∨ (∃ name ∈ Step.moving, s.refuses name = true) ∨
      Entries.get? branch w.repository.branches = none →
    w.repository.Like r → Comes s branch ours w (.error f) { w with repository := r }
  | upToDate {tip : CommitId} {r : Repository} :
    incoming? s w.repository branch = some tip → s.refuses .compare = false →
    s.history.Precedes tip ours →
    w.repository.Like r → Comes s branch ours w (.ok .upToDate) { w with repository := r }
  | diverged {tip : CommitId} {r : Repository} :
    incoming? s w.repository branch = some tip → s.refuses .compare = false →
    ¬s.history.Precedes tip ours ∧ ¬s.history.Precedes ours tip →
    w.repository.Like r → Comes s branch ours w (.ok .diverged) { w with repository := r }
  | fastForwarded {tip : CommitId} {r : Repository} :
    incoming? s w.repository branch = some tip → s.history.IsBehind ours tip →
    (∀ name, s.refuses name = false) →
    Moved branch tip w.repository r → r.tracked = some tip →
    Comes s branch ours w (.ok .fastForwarded)
      { repository := r
        files := Snapshot.checkOut (w.repository.snapshot s.history) (s.history.snapshot tip)
          w.files }
  /-- The branch has moved, and putting the head on it or checking out is refused. -/
  | halfWay {tip : CommitId} {r : Repository} :
    incoming? s w.repository branch = some tip → s.history.IsBehind ours tip →
    (∀ name ∈ Step.moving, s.refuses name = false) →
    s.refuses .moveHead = true ∨ s.refuses .checkOut = true →
    Moved branch tip w.repository r → r.tracked = w.repository.tracked →
    Comes s branch ours w (.error .refused) { w with repository := r }

/-- What comes of moving a branch that is there. -/
theorem perform_fastForward (s : Surroundings) {branch : String} {ours : CommitId} (tip : CommitId)
    {w : WorkingCopy} (hhead : w.repository.head = some (.branch branch))
    (hours : Entries.get? branch w.repository.branches = some ours) :
    let moved := { w with repository := { w.repository with
      branches := Entries.insert branch tip w.repository.branches } }
    (fastForward s branch tip).perform w =
      if s.refuses .findBranch = true then (.error .refused, w)
      else if s.refuses .moveBranch = true then (.error .refused, w)
      else if s.refuses .moveHead = true then (.error .refused, moved)
      else if s.refuses .checkOut = true then (.error .refused, moved)
      else (.ok (), { repository := { moved.repository with tracked := some tip }
                      files := Snapshot.checkOut (w.repository.snapshot s.history)
                        (s.history.snapshot tip) w.files }) := by
  have hbranch : Entries.get? branch (Entries.insert branch tip w.repository.branches) =
      some tip := by
    rw [Entries.get?_insert, if_pos rfl]
  have hcommit : headCommit? { w.repository with
      branches := Entries.insert branch tip w.repository.branches } = some tip := by
    rw [headCommit?, hhead]
    exact hbranch
  unfold fastForward
  dsimp only
  rw [perform_step_bind]
  by_cases hfind : s.refuses .findBranch = true
  · rw [if_pos hfind, if_pos hfind]
  rw [if_neg hfind, if_neg hfind, bind_assoc, perform_bind, perform_need, hours]
  dsimp only [Option.elim]
  rw [pure_bind, perform_step_bind]
  by_cases hbranchStep : s.refuses .moveBranch = true
  · rw [if_pos hbranchStep, if_pos hbranchStep]
  rw [if_neg hbranchStep, if_neg hbranchStep, perform_bind, perform_change]
  dsimp only
  rw [perform_step_bind]
  by_cases hheadStep : s.refuses .moveHead = true
  · rw [if_pos hheadStep, if_pos hheadStep]
  rw [if_neg hheadStep, if_neg hheadStep, perform_bind, perform_change]
  dsimp only
  rw [perform_step, ← hhead]
  by_cases hcheckOut : s.refuses .checkOut = true
  · rw [if_pos hcheckOut, if_pos hcheckOut]
  · rw [if_neg hcheckOut, if_neg hcheckOut, perform_checkOutHead, hcommit]
    rfl

/-- What comes of moving a branch that is not there. -/
theorem exists_perform_fastForward (s : Surroundings) {branch : String} (tip : CommitId)
    {w : WorkingCopy} (hnone : Entries.get? branch w.repository.branches = none) :
    ∃ f, (fastForward s branch tip).perform w = (.error f, w) := by
  unfold fastForward
  rw [perform_step_bind]
  split
  · exact ⟨_, rfl⟩
  · rw [bind_assoc, perform_bind, perform_need, hnone]
    exact ⟨_, rfl⟩

/-- The rest of a pull, from where it knows what is incoming. -/
def settle (s : Surroundings) (branch : String) (ours theirs : CommitId) : Pull Outcome := do
  match ← step s .compare <| pure (s.history.relation ours theirs) with
  | .ahead => return .upToDate
  | .diverged => return .diverged
  | .behind =>
    fastForward s branch theirs
    return .fastForwarded

theorem run_eq_settle (s : Surroundings) :
    run s = (do
      let (name, ours) ← step s .readHead <| need .noHead (·.namedHead?)
      let url ← step s .findOrigin <| need .noOrigin (·.origin)
      step s .fetch <| fetch s url name
      let theirs ← step s .readFetched <| need (.noBranch name) (·.fetched)
      settle s name ours theirs) :=
  rfl

section Comes

variable {s : Surroundings} {branch : String} {ours tip : CommitId} {w : WorkingCopy}
  {r : Repository}

theorem comes_of_refused_reading {name : Step} {f : Fault} (h : s.refuses name = true)
    (hname : name ∈ Step.reading) (hlike : w.repository.Like r) :
    Comes s branch ours w (.error f) { w with repository := r } :=
  .stopped (Or.inl (incoming?_of_refused hname h w.repository branch)) hlike

theorem comes_of_refused_moving {name : Step} {f : Fault} (h : s.refuses name = true)
    (hname : name ∈ Step.moving) (hlike : w.repository.Like r) :
    Comes s branch ours w (.error f) { w with repository := r } :=
  .stopped (Or.inr (Or.inl ⟨name, hname, h⟩)) hlike

/-- Nothing is refused on the way to something incoming. -/
theorem not_refused_of_incoming? (h : incoming? s w.repository branch = some tip) {name : Step}
    (hname : name ∈ Step.reading) : s.refuses name = false := by
  refine eq_false_of_ne_true fun hrefused => ?_
  rw [incoming?_of_refused hname hrefused] at h
  cases h

/-- What comes of moving the branch of the head to something incoming that comes after it. -/
theorem comes_fastForward (hincoming : incoming? s w.repository branch = some tip)
    (hcompare : s.refuses .compare = false) (hbehind : s.history.IsBehind ours tip)
    (hlike : w.repository.Like r) (hhead : w.repository.head = some (.branch branch))
    (hours : Entries.get? branch w.repository.branches = some ours) :
    Comes s branch ours w
      ((fastForward s branch tip >>= fun _ => pure Outcome.fastForwarded).perform
        { w with repository := r }).1
      ((fastForward s branch tip >>= fun _ => pure Outcome.fastForwarded).perform
        { w with repository := r }).2 := by
  have hsnapshot : r.snapshot s.history = w.repository.snapshot s.history := by
    rw [snapshot, hlike.tracked, snapshot]
  have hmoved : Moved branch tip w.repository
      { r with branches := Entries.insert branch tip r.branches } :=
    ⟨hhead, hlike.head, by rw [hlike.branches], hlike.origin⟩
  rw [perform_bind, perform_fastForward (w := { w with repository := r }) s tip
    (hlike.head.trans hhead) (hlike.branches ▸ hours), hsnapshot]
  by_cases hfind : s.refuses .findBranch = true
  · rw [if_pos hfind]
    exact comes_of_refused_moving hfind (by decide) hlike
  by_cases hbranchStep : s.refuses .moveBranch = true
  · rw [if_neg hfind, if_pos hbranchStep]
    exact comes_of_refused_moving hbranchStep (by decide) hlike
  have hmoving : ∀ name ∈ Step.moving, s.refuses name = false := by
    simp [Step.moving, *]
  by_cases hheadStep : s.refuses .moveHead = true
  · rw [if_neg hfind, if_neg hbranchStep, if_pos hheadStep]
    exact .halfWay hincoming hbehind hmoving (Or.inl hheadStep) hmoved hlike.tracked
  by_cases hcheckOut : s.refuses .checkOut = true
  · rw [if_neg hfind, if_neg hbranchStep, if_neg hheadStep, if_pos hcheckOut]
    exact .halfWay hincoming hbehind hmoving (Or.inr hcheckOut) hmoved hlike.tracked
  rw [if_neg hfind, if_neg hbranchStep, if_neg hheadStep, if_neg hcheckOut]
  refine .fastForwarded hincoming hbehind (fun name => ?_)
    ⟨hhead, hmoved.head, hmoved.branches, hmoved.origin⟩ rfl
  have hreading : name ∈ Step.reading → s.refuses name = false :=
    not_refused_of_incoming? hincoming
  cases name with
  | readHead | findOrigin | fetch | readFetched => exact hreading (by decide)
  | compare | findBranch | moveBranch => exact hmoving _ (by decide)
  | moveHead => exact eq_false_of_ne_true hheadStep
  | checkOut => exact eq_false_of_ne_true hcheckOut

/-- What comes of a pull that knows what is incoming. -/
theorem comes_settle (hincoming : incoming? s w.repository branch = some tip)
    (hlike : w.repository.Like r)
    (hon : w.repository.head = some (.branch branch) ∧
        Entries.get? branch w.repository.branches = some ours ∨
      Entries.get? branch w.repository.branches = none) :
    Comes s branch ours w ((settle s branch ours tip).perform { w with repository := r }).1
      ((settle s branch ours tip).perform { w with repository := r }).2 := by
  unfold settle
  rw [perform_step_bind]
  by_cases hcompare : s.refuses .compare = true
  · rw [if_pos hcompare]
    exact comes_of_refused_moving hcompare (by decide) hlike
  rw [if_neg hcompare, pure_bind]
  replace hcompare := eq_false_of_ne_true hcompare
  cases hrel : s.history.relation ours tip with
  | ahead => exact .upToDate hincoming hcompare (History.relation_eq_ahead.mp hrel) hlike
  | diverged => exact .diverged hincoming hcompare (History.relation_eq_diverged.mp hrel) hlike
  | behind =>
    rcases hon with ⟨hhead, hours⟩ | hnone
    · exact comes_fastForward hincoming hcompare (History.relation_eq_behind.mp hrel) hlike hhead
        hours
    · obtain ⟨f, hf⟩ := exists_perform_fastForward s tip (w := { w with repository := r })
        ((congrArg _ hlike.branches).trans hnone)
      dsimp only
      rw [perform_bind, hf]
      exact .stopped (Or.inr (Or.inr hnone)) hlike

end Comes

theorem comes_run (s : Surroundings) {branch : String} {ours : CommitId} {w : WorkingCopy}
    (hnamed : w.repository.namedHead? = some (branch, ours))
    (hon : w.repository.head = some (.branch branch) ∨
      Entries.get? branch w.repository.branches = none) :
    Comes s branch ours w ((run s).perform w).1 ((run s).perform w).2 := by
  rw [run_eq_settle, perform_step_bind]
  by_cases hreadHead : s.refuses .readHead = true
  · rw [if_pos hreadHead]
    exact comes_of_refused_reading hreadHead (by decide) (.refl _)
  rw [if_neg hreadHead, perform_bind, perform_need, hnamed]
  dsimp only [Option.elim]
  rw [perform_step_bind]
  by_cases hfindOrigin : s.refuses .findOrigin = true
  · rw [if_pos hfindOrigin]
    exact comes_of_refused_reading hfindOrigin (by decide) (.refl _)
  rw [if_neg hfindOrigin, perform_bind, perform_need]
  have hnothing (horigin : (w.repository.origin.bind fun url => (s.look url).toOption) = none) :
      incoming? s w.repository branch = none := by
    rw [incoming?, horigin]
    exact ite_self none
  cases horigin : w.repository.origin with
  | none =>
    refine .stopped (Or.inl (hnothing ?_)) (.refl _)
    rw [horigin]
    rfl
  | some url =>
    dsimp only [Option.elim]
    rw [perform_step_bind]
    by_cases hfetch : s.refuses .fetch = true
    · rw [if_pos hfetch]
      exact comes_of_refused_reading hfetch (by decide) (.refl _)
    rw [if_neg hfetch, perform_bind, perform_fetch]
    cases hlook : s.look url with
    | error f =>
      refine .stopped (Or.inl (hnothing ?_)) (.refl _)
      rw [horigin, Option.bind_some, hlook]
      rfl
    | ok remote =>
      dsimp only
      generalize hr : ({ w.repository with
        fetched := remote.tip? branch
        commits := union w.repository.commits remote.commits } : Repository) = r
      have hlike : w.repository.Like r := hr ▸ ⟨rfl, rfl, rfl, rfl⟩
      have hfetched : r.fetched = remote.tip? branch := hr ▸ rfl
      rw [perform_step_bind]
      by_cases hreadFetched : s.refuses .readFetched = true
      · rw [if_pos hreadFetched]
        exact comes_of_refused_reading hreadFetched (by decide) hlike
      rw [if_neg hreadFetched, perform_bind, perform_need, hfetched]
      have hincoming : incoming? s w.repository branch = remote.tip? branch := by
        rw [incoming?, if_neg (by simp [Step.reading, *]), horigin, Option.bind_some, hlook]
        rfl
      cases htip : remote.tip? branch with
      | none => exact .stopped (Or.inl (hincoming.trans htip)) hlike
      | some tip =>
        refine comes_settle (hincoming.trans htip) hlike (hon.imp_left fun hhead => ⟨hhead, ?_⟩)
        rw [namedHead?_of_branch hhead] at hnamed
        simpa using hnamed

end Pull

end Scaffold
