import Scaffold.Proofs.Disk.Tour
import Mathlib.Algebra.Order.BigOperators.Group.List

/-!
# Links that lead back

Below a path, links may lead back to a directory that they are in (`LeadsBack`), at once or
around other directories. A walk from the path then comes by a fault : if it came by none, it
would go around any number of times (`exists_stop_of_round`), and it comes by no more than it is
long. So `exists_fault_of_leadsBack`, and the other way round a walk reports a cycle only where
a link does lead back (`leadsBack_of_cycle`). A directory that is come to on different ways, but
is on none of them twice, is no fault.
-/

namespace Scaffold

open Scaffold.Path

namespace Disk

/-- Whether following links from a path leads back to a directory that one is in by then : some
names lead to it, and so do the same names and more. -/
def LeadsBack (d : Disk) (p : Path) : Prop :=
  ∃ (names more : List String) (l : Location) (n n' : Node), more ≠ [] ∧
    (∀ m ∈ names ++ more, IsName m) ∧ n.isDir = true ∧ d.stat (p.joinAll names) = .ok (l, n) ∧
    d.stat (p.joinAll (names ++ more)) = .ok (l, n')

variable {d : Disk} {p : Path}

/-! ## Where one more name leads -/

/-- Where a walk leads it also leads when it may follow more links. -/
theorem walk_links_mono {top : Node} {followLast : Bool} {links more : Nat} {cur : Location}
    {steps : List Step} {found : Found} (h : walk top followLast links cur steps = .ok found)
    (hle : links ≤ more) : walk top followLast more cur steps = .ok found := by
  induction links generalizing more cur steps with
  | zero => cases h
  | succ links ihl =>
    obtain ⟨more, rfl⟩ := Nat.exists_eq_add_of_le' hle
    have hle : links ≤ more + links := Nat.le_add_left ..
    rw [← Nat.add_assoc]
    induction steps generalizing cur with
    | nil => exact h
    | cons step rest ihs =>
      rw [walk_cons] at h ⊢
      split at h
      · exact ihs h
      · exact ihs h
      · split at h
        · exact h
        · split at h
          · rename_i hlast
            rw [if_pos hlast]
            exact h
          · rename_i target _ hlast
            rw [if_neg hlast]
            unfold follower at h ⊢
            split at h
            · cases h
            · rename_i ht
              rw [if_neg ht]
              exact ihl h hle
        · exact ihs h
      · cases h
      · cases h

/-- One more name is looked up in the directory that a path leads to. -/
theorem Leads.resolve_join_name {l : Location} {name : String} (h : d.Leads p.parts l)
    (hname : IsName name) :
    ∃ k, d.resolve true (p.join name) = walk d.top true (k + 1) l [.name name] := by
  obtain ⟨k, hk⟩ := h.follow_append (c := .name name) hname rfl
  exact ⟨k, (resolve_join d true p (c := .name name) hname).trans (hk true)⟩

/-- One more name leads from a directory to one location, whatever led to the directory. -/
theorem stat_join_unique {p q : Path} {l a b : Location} {m n : Node} {name : String}
    (hname : IsName name) (hp : d.Leads p.parts l) (hq : d.Leads q.parts l)
    (ha : d.stat (p.join name) = .ok (a, m)) (hb : d.stat (q.join name) = .ok (b, n)) :
    a = b ∧ m = n := by
  obtain ⟨i, hi⟩ := hp.resolve_join_name hname
  obtain ⟨j, hj⟩ := hq.resolve_join_name hname
  rw [stat_eq_ok, hi] at ha
  rw [stat_eq_ok, hj] at hb
  have ha := walk_links_mono ha (Nat.le_add_right (i + 1) (j + 1))
  have hb := walk_links_mono hb (Nat.le_add_left (j + 1) (i + 1))
  rw [ha] at hb
  obtain ⟨rfl, hn⟩ := Found.mk.inj (Except.ok.inj hb)
  exact ⟨rfl, Option.some.inj hn⟩

/-- When one more name leads somewhere, it is the name of an entry. -/
theorem exists_entry_of_stat {p : Path} {l a : Location} {m : Node} {name : String}
    {entries : List (String × Node)} (hd : d.top.Proper) (hname : IsName name)
    (hp : d.stat p = .ok (l, .dir entries)) (ha : d.stat (p.join name) = .ok (a, m)) :
    ∃ e ∈ entries, e.1 = name := by
  obtain ⟨k, hk⟩ := (leads_of_stat hp rfl).resolve_join_name hname
  rw [stat_eq_ok, hk, walk_name,
    Node.layout_eq_dir.mpr ⟨entries, at?_of_stat hp⟩] at ha
  dsimp only at ha
  cases hat : d.top.at? (l ++ [name]) with
  | none =>
    rw [Node.layout_eq_none.mpr hat] at ha
    cases (Found.mk.inj (Except.ok.inj ha)).2
  | some c =>
    rw [Node.at?_concat_dir name (at?_of_stat hp)] at hat
    exact ⟨(name, c), (hd.at? (at?_of_stat hp)).get?_iff.mp hat, rfl⟩

/-! ## The stops of a walk -/

/-- What holds of each stop of a walk : it was reached, and the directories that it is in were
gone through on the way. -/
structure Stop.Sound (d : Disk) (p : Path) (s : Stop) : Prop where
  reached : ∃ n, d.top.at? s.location = some n ∧ Reached d p s.names s.location s.path n
  above : ∀ a ∈ s.inside, ∃ (names more : List String) (n : Node), s.names = names ++ more ∧
    more ≠ [] ∧ n.isDir = true ∧ d.stat (p.joinAll names) = .ok (a.1, n)

namespace Stop.Sound

variable {s : Stop}

theorem isName (h : s.Sound d p) : ∀ m ∈ s.names, IsName m := by
  obtain ⟨n, -, hr⟩ := h.reached
  exact hr.isName

theorem path_eq (h : s.Sound d p) : s.path = p.joinAll s.names := by
  obtain ⟨n, -, hr⟩ := h.reached
  exact hr.path_eq

/-- A stop that is visited without a fault leads somewhere, and the stops within are those for
the entries that are there. -/
theorem visit_eq_ok (h : s.Sound d p) {v : Visit} {within : List Stop}
    (hs : s.visit d = .ok (v, within)) :
    ∃ l n, d.stat s.path = .ok (l, n) ∧ v = ⟨s.names, n.isDir⟩ ∧ within = s.within l n.entries := by
  obtain ⟨m, hm, hr⟩ := h.reached
  rw [Stop.visit, hm] at hs
  cases m with
  | file bytes executable =>
    obtain ⟨rfl, rfl⟩ := Prod.mk.inj (Except.ok.inj hs)
    exact ⟨_, _, hr.stat_eq (by simp), rfl, rfl⟩
  | dir entries =>
    obtain ⟨rfl, rfl⟩ := Prod.mk.inj (Except.ok.inj hs)
    exact ⟨_, _, hr.stat_eq (by simp), rfl, rfl⟩
  | link target =>
    dsimp only at hs
    split at hs
    · cases hs
    · rename_i l n hstat
      split at hs
      · rename_i hdir
        split at hs
        · cases hs
        · obtain ⟨rfl, rfl⟩ := Prod.mk.inj (Except.ok.inj hs)
          exact ⟨l, n, hstat, by rw [hdir], rfl⟩
      · rename_i hdir
        obtain ⟨rfl, rfl⟩ := Prod.mk.inj (Except.ok.inj hs)
        refine ⟨l, n, hstat, by rw [Bool.eq_false_of_not_eq_true hdir], ?_⟩
        cases n with
        | dir entries => exact (hdir rfl).elim
        | file bytes executable => rfl
        | link target => rfl

/-- The stops within a stop that leads somewhere are sound. -/
theorem within (h : s.Sound d p) (hd : d.top.Proper) {l : Location} {n : Node}
    (hstat : d.stat s.path = .ok (l, n)) : ∀ s' ∈ s.within l n.entries, s'.Sound d p := by
  intro s' hs'
  obtain ⟨e, he, rfl⟩ := List.mem_map.mp hs'
  cases n with
  | file bytes executable => cases he
  | link target => cases he
  | dir entries =>
    have hr : Reached d p s.names l s.path (.dir entries) := ⟨h.isName, h.path_eq, fun _ => hstat⟩
    refine ⟨⟨e.2, (hd.mem_entries (at?_of_stat hstat) he).2, hr.entry hd he⟩, fun a ha => ?_⟩
    rcases List.mem_cons.mp ha with rfl | ha
    · exact ⟨s.names, [e.1], .dir entries, rfl, by simp, rfl, h.path_eq ▸ hstat⟩
    · obtain ⟨names, more, n, hnames, -, hdir, hn⟩ := h.above a ha
      exact ⟨names, more ++ [e.1], n, by simp [hnames], by simp, hdir, hn⟩

/-- A stop that is reported as a cycle leads back. -/
theorem leadsBack_of_cycle (h : s.Sound d p) {path ancestor : String}
    (hs : s.visit d = .error (.cycle path ancestor)) : d.LeadsBack p := by
  rw [Stop.visit] at hs
  split at hs
  · cases hs
  · cases hs
  · cases hs
  · split at hs
    · cases hs
    · rename_i l n hstat
      split at hs
      · split at hs
        · rename_i a hfind
          obtain ⟨names, more, m, hnames, hmore, hdir, hm⟩ := h.above a
            (List.mem_of_find?_eq_some hfind)
          have hl : a.1 = l := by simpa using List.find?_some hfind
          refine ⟨names, more, l, m, n, hmore, hnames ▸ h.isName, hdir, hl ▸ hm, ?_⟩
          rw [← hnames, ← h.path_eq, hstat]
        · cases hs
      · cases hs

end Stop.Sound

/-- Where a walk starts is sound. -/
theorem sound_start {l₀ l : Location} {n₀ n : Node} (h₀ : d.linkStat p = .ok (l₀, n₀))
    (h : d.stat p = .ok (l, n)) : (Stop.start l₀ p).Sound d p := by
  obtain ⟨l', n', hls, hlink⟩ := exists_linkStat_of_stat h
  rw [h₀] at hls
  obtain ⟨rfl, rfl⟩ := Prod.mk.inj (Except.ok.inj hls)
  refine ⟨⟨n₀, at?_of_linkStat h₀, by simp [Stop.start], rfl, fun hno => ?_⟩, by simp [Stop.start]⟩
  rcases hlink with ⟨target, rfl⟩ | ⟨rfl, rfl⟩
  · exact (hno target rfl).elim
  · exact h

/-- A tour has come to certain stops, in order : those that it starts with, and with each one
those within. -/
theorem Tour.exists_stops (hd : d.top.Proper) {stops : List Stop} {vs : List (Except Fault Visit)}
    (h : Tour d stops vs) (hsound : ∀ s ∈ stops, s.Sound d p) :
    ∃ all : List Stop, stops ⊆ all ∧ vs = all.map (fun s => (s.visit d).map Prod.fst) ∧
      (∀ s ∈ all, s.Sound d p) ∧
      ∀ s ∈ all, ∀ v within, s.visit d = .ok (v, within) → within ⊆ all := by
  induction h with
  | done => exact ⟨[], by simp, rfl, by simp, by simp⟩
  | @fault s f rest vs hs _ ih =>
    obtain ⟨all, hsub, hvs, hall, hclosed⟩ := ih fun s' hs' =>
      hsound s' (List.mem_cons_of_mem _ hs')
    refine ⟨s :: all, List.cons_subset_cons _ hsub, by simp [hs, hvs, Except.map],
      List.forall_mem_cons.mpr ⟨hsound s List.mem_cons_self, hall⟩, ?_⟩
    intro s' hs' v within hv
    rcases List.mem_cons.mp hs' with rfl | hs'
    · rw [hs] at hv
      cases hv
    · exact List.Subset.trans (hclosed s' hs' v within hv) (List.subset_cons_self _ _)
  | @visit s v within rest vs hs _ ih =>
    have hs₀ := hsound s List.mem_cons_self
    obtain ⟨l, n, hstat, -, hwithin⟩ := hs₀.visit_eq_ok hs
    obtain ⟨all, hsub, hvs, hall, hclosed⟩ := ih fun s' hs' => by
      rcases List.mem_append.mp hs' with hs' | hs'
      · exact hs₀.within hd hstat s' (hwithin ▸ hs')
      · exact hsound s' (List.mem_cons_of_mem _ hs')
    obtain ⟨hin, hrest⟩ := List.append_subset.mp hsub
    refine ⟨s :: all, List.cons_subset_cons _ hrest, by simp [hs, hvs, Except.map],
      List.forall_mem_cons.mpr ⟨hs₀, hall⟩, ?_⟩
    intro s' hs' v' within' hv
    rcases List.mem_cons.mp hs' with rfl | hs'
    · rw [hs] at hv
      obtain ⟨-, rfl⟩ := Prod.mk.inj (Except.ok.inj hv)
      exact List.Subset.trans hin (List.subset_cons_self _ _)
    · exact List.Subset.trans (hclosed s' hs' v' within' hv) (List.subset_cons_self _ _)

/-! ## Around and around -/

theorem text_joinAll_ne {names more : List String} (hp : (p.joinAll names).text ≠ "")
    (hmore : ∀ x ∈ more, IsName x) : (p.joinAll (names ++ more)).text ≠ "" := by
  cases more using List.reverseRecOn with
  | nil => rwa [List.append_nil]
  | append_singleton more x =>
    rw [← List.append_assoc, joinAll_concat]
    exact text_join_ne _ (c := .name x) (hmore x (by simp))

section

variable {all : List Stop} (hd : d.top.Proper) (hall : ∀ s ∈ all, s.Sound d p)
  (hok : ∀ s ∈ all, ∃ v within, s.visit d = .ok (v, within) ∧ within ⊆ all)

include hd hall hok

/-- Where names lead on from a directory, they lead from each stop that leads to the same
directory. -/
theorem exists_stop_of_names {names more : List String} {l a : Location} {n m : Node}
    (hmore : ∀ x ∈ more, IsName x) (hn : d.stat (p.joinAll names) = .ok (l, n))
    (hm : d.stat (p.joinAll (names ++ more)) = .ok (a, m)) {s : Stop} (hs : s ∈ all)
    (hl : d.stat s.path = .ok (l, n)) :
    ∃ s' ∈ all, s'.names = s.names ++ more ∧ d.stat s'.path = .ok (a, m) := by
  induction more using List.reverseRecOn generalizing a m with
  | nil =>
    rw [List.append_nil, hn] at hm
    exact ⟨s, hs, by simp, hl.trans hm⟩
  | append_singleton more x ih =>
    have hx : IsName x := hmore x (by simp)
    rw [← List.append_assoc, joinAll_concat] at hm
    -- Up to the last name the way leads to a directory, which a stop leads to as well.
    obtain ⟨above, b, c, hb, hc⟩ : ∃ (above : Location) (b : Node) (c : List (String × Node)),
        d.stat (p.joinAll (names ++ more)) = .ok (above, b) ∧ b = .dir c := by
      have hparts : ((p.joinAll (names ++ more)).join x).parts =
          (p.joinAll (names ++ more)).parts ++ [.name x] := parts_join _ (c := .name x) hx
      have hf := follow_of_stat hm
      rw [hparts] at hf
      obtain ⟨above, c, hc⟩ := exists_leads_of_follow (c := .name x) hx hf
      exact ⟨above, .dir c, c, stat_eq_ok.mpr (resolve_of_follow
        (text_joinAll_ne (text_ne_of_resolve (stat_eq_ok.mp hn)) fun y hy =>
          hmore y (List.mem_append_left _ hy)) hc), rfl⟩
    obtain ⟨s₁, hs₁, hnames₁, hstat₁⟩ := ih (fun y hy => hmore y (List.mem_append_left _ hy)) hb
    subst hc
    obtain ⟨v, within, hv, hsub⟩ := hok s₁ hs₁
    obtain ⟨l₁, n₁, hl₁, -, rfl⟩ := (hall s₁ hs₁).visit_eq_ok hv
    rw [hstat₁] at hl₁
    obtain ⟨rfl, rfl⟩ := Prod.mk.inj (Except.ok.inj hl₁)
    obtain ⟨e, he, rfl⟩ := exists_entry_of_stat hd hx hb hm
    have hs₂ := hsub (List.mem_map_of_mem he)
    refine ⟨_, hs₂, by simp [hnames₁], ?_⟩
    obtain ⟨v₂, within₂, hv₂, -⟩ := hok _ hs₂
    obtain ⟨l₂, n₂, hl₂, -, -⟩ := (hall _ hs₂).visit_eq_ok hv₂
    obtain ⟨rfl, rfl⟩ := stat_join_unique hx (leads_of_stat hb rfl) (leads_of_stat hstat₁ rfl) hm hl₂
    exact hl₂

/-- Where more names lead around to the same directory, there are stops after any number of
rounds. -/
theorem exists_stop_of_round {names more : List String} {l : Location} {n : Node}
    (hnames : ∀ x ∈ names ++ more, IsName x) (hn : d.stat (p.joinAll names) = .ok (l, n))
    (hround : d.stat (p.joinAll (names ++ more)) = .ok (l, n)) {s : Stop} (hs : s ∈ all)
    (hstart : s.names = []) (hp : s.path = p) (rounds : Nat) :
    ∃ s' ∈ all, s'.names = names ++ (List.replicate rounds more).flatten ∧
      d.stat s'.path = .ok (l, n) := by
  obtain ⟨hfirst, hmore⟩ := List.forall_mem_append.mp hnames
  induction rounds with
  | zero =>
    obtain ⟨v, within, hv, -⟩ := hok s hs
    obtain ⟨l₀, n₀, h₀, -, -⟩ := (hall s hs).visit_eq_ok hv
    have hroot : d.stat (p.joinAll []) = .ok (l₀, n₀) := by rwa [joinAll_nil, ← hp]
    obtain ⟨s', hs', hnames', hstat⟩ := exists_stop_of_names hd hall hok hfirst hroot hn hs h₀
    exact ⟨s', hs', by simp [hnames', hstart], hstat⟩
  | succ rounds ih =>
    obtain ⟨s₁, hs₁, hnames₁, hstat₁⟩ := ih
    obtain ⟨s', hs', hnames', hstat⟩ := exists_stop_of_names hd hall hok hmore hn hround hs₁ hstat₁
    refine ⟨s', hs', ?_, hstat⟩
    rw [hnames', hnames₁, List.replicate_succ', List.flatten_concat, List.append_assoc]

end

/-! ## What a walk reports -/

/-- A walk from a path comes by a fault when links lead back below the path. -/
theorem exists_fault_of_leadsBack (hd : d.top.Proper) {found : Location × Node}
    (hp : d.stat p = .ok found) (h : d.LeadsBack p) : ∃ f, .error f ∈ walkFrom d p := by
  obtain ⟨names, more, l, n, n', hne, hnames, -, hn, hround⟩ := h
  obtain rfl : n = n' := Option.some.inj ((at?_of_stat hn).symm.trans (at?_of_stat hround))
  obtain ⟨l₀, n₀, h₀, -⟩ := exists_linkStat_of_stat hp
  obtain ⟨all, hstops, hvs, hall, hclosed⟩ := (tour_walkFrom hd h₀).exists_stops hd
    (List.forall_mem_singleton.mpr (sound_start h₀ hp))
  by_contra hnone
  have hok : ∀ s ∈ all, ∃ v within, s.visit d = .ok (v, within) ∧ within ⊆ all := by
    intro s hs
    cases hv : s.visit d with
    | error f =>
      refine (hnone ⟨f, ?_⟩).elim
      rw [hvs]
      exact List.mem_map.mpr ⟨s, hs, by rw [hv]; rfl⟩
    | ok visited => exact ⟨visited.1, visited.2, rfl, hclosed s hs _ _ hv⟩
  -- The stops are finitely many, so their names are of bounded length.
  have hbound : ∀ s ∈ all, s.names.length ≤ (all.map (·.names.length)).sum := fun s hs =>
    List.le_sum_of_mem (List.mem_map_of_mem hs)
  obtain ⟨s, hs, hlong, -⟩ := exists_stop_of_round hd hall hok hnames hn hround
    (hstops List.mem_cons_self) rfl rfl ((all.map (·.names.length)).sum + 1)
  have hle := hbound s hs
  have hpos := List.length_pos_iff.mpr hne
  rw [hlong, List.length_append, List.length_flatten, List.map_replicate,
    List.sum_replicate_nat] at hle
  have hrounds := Nat.le_mul_of_pos_right ((all.map (·.names.length)).sum + 1) hpos
  omega

/-- Where a walk from a path reports a cycle, links do lead back below the path. -/
theorem leadsBack_of_cycle (hd : d.top.Proper) {found : Location × Node}
    (hp : d.stat p = .ok found) {path ancestor : String}
    (h : .error (.cycle path ancestor) ∈ walkFrom d p) : d.LeadsBack p := by
  obtain ⟨l₀, n₀, h₀, -⟩ := exists_linkStat_of_stat hp
  obtain ⟨all, -, hvs, hall, -⟩ := (tour_walkFrom hd h₀).exists_stops hd
    (List.forall_mem_singleton.mpr (sound_start h₀ hp))
  rw [hvs, List.mem_map] at h
  obtain ⟨s, hs, hv⟩ := h
  cases hvisit : s.visit d with
  | ok visited =>
    rw [hvisit] at hv
    cases hv
  | error f =>
    rw [hvisit] at hv
    obtain rfl := Except.error.inj hv
    exact (hall s hs).leadsBack_of_cycle hvisit

end Disk

end Scaffold
