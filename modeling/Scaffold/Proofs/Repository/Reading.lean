import Scaffold.Proofs.Disk.Proper
import Scaffold.Proofs.Disk.Storing
import Scaffold.Proofs.Repository.Ancestry
import Scaffold.Proofs.Repository.Showing
import Scaffold.Proofs.Repository.Files
import Scaffold.Repository.Address

/-!
# Reading repositories back

A commit that is known is read from its text (`commitOfText?_eq_some`), and a branch stands for the
commit in the file that its name leads to (`get?_branchesOf`), if the files of branches are in a
proper tree. What was read stays so when the history grows (`commitAt?_mono`).
-/

namespace Scaffold

open Scaffold.Path

/-! ## Paths and locations -/

namespace Snapshot

open Disk

theorem locationOf_pathOf : ∀ {names : Location}, names ≠ [] → (∀ n ∈ names, '/' ∉ n.toList) →
    locationOf (pathOf names) = names
  | [], h, _ => (h rfl).elim
  | [n], _, h => by
    rw [pathOf, String.intercalate_singleton, locationOf,
      Text.pieces_of_not_mem (h n List.mem_cons_self)]
    simp
  | n :: m :: names, _, h => by
    have ih := locationOf_pathOf (List.cons_ne_nil m names) fun n hn =>
      h n (List.mem_cons_of_mem _ hn)
    have htext : (pathOf (n :: m :: names)).toList =
        n.toList ++ '/' :: (pathOf (m :: names)).toList := by
      rw [pathOf, String.intercalate_cons_of_ne_nil (List.cons_ne_nil m names)]
      simp [pathOf]
    rw [locationOf, htext, Text.pieces_append_mark,
      Text.pieces_of_not_mem (h n List.mem_cons_self), List.map_append, ← locationOf, ih]
    simp

theorem toList_pathOf : ∀ text : List Char,
    (pathOf ((Text.pieces '/' text).map String.ofList)).toList = text
  | [] => by simp [Text.pieces, pathOf, String.intercalate_singleton]
  | c :: text => by
    have ih := toList_pathOf text
    obtain ⟨piece, more, hp⟩ := List.exists_cons_of_ne_nil (Text.pieces_ne_nil '/' text)
    rw [hp, List.map_cons] at ih
    by_cases hc : c = '/'
    · subst hc
      rw [Text.pieces, if_pos rfl, hp, List.map_cons, List.map_cons, pathOf,
        String.intercalate_cons_of_ne_nil (List.cons_ne_nil _ _)]
      rw [pathOf] at ih
      simp [ih]
    · simp only [Text.pieces, if_neg hc, hp, List.map_cons]
      cases more with
      | nil =>
        rw [List.map_nil, pathOf, String.intercalate_singleton] at ih ⊢
        simpa using ih
      | cons next more =>
        rw [List.map_cons, pathOf, String.intercalate_cons_of_ne_nil (List.cons_ne_nil _ _)] at ih ⊢
        simpa using ih

theorem pathOf_locationOf (path : String) : pathOf (locationOf path) = path :=
  String.toList_inj.mp (toList_pathOf path.toList)

end Snapshot

namespace Entries

variable {α : Type}

/-- A table of pairs has what the pairs of a name agree on. -/
theorem get?_ofPairs_of_forall {name : String} {value : α} {pairs : List (String × α)}
    (hmem : ∃ p ∈ pairs, p.1 = name) (h : ∀ p ∈ pairs, p.1 = name → p.2 = value) :
    get? name (ofPairs pairs) = some value := by
  obtain ⟨p, hp, hname⟩ := hmem
  obtain ⟨before, after, rfl⟩ := List.append_of_mem hp
  rw [ofPairs, List.foldl_append, List.foldl_cons]
  refine List.foldlRecOn after _ (motive := fun t => get? name t = some value) ?_ ?_
  · rw [get?_insert, if_pos hname, h p hp hname]
  · intro t ht q hq
    rw [get?_insert]
    split
    · rename_i hq'
      rw [h q (List.mem_append_right _ (List.mem_cons_of_mem _ hq)) hq']
    · exact ht

/-- What a table of pairs has is one of the pairs. -/
theorem mem_of_get?_ofPairs {name : String} {value : α} {pairs : List (String × α)}
    (h : get? name (ofPairs pairs) = some value) : (name, value) ∈ pairs := by
  have hall : ∀ value, get? name (ofPairs pairs) = some value → (name, value) ∈ pairs := by
    refine List.foldlRecOn pairs _
      (motive := fun t => ∀ value, get? name t = some value → (name, value) ∈ pairs) nofun ?_
    intro t ht p hp value hvalue
    rw [get?_insert] at hvalue
    split at hvalue
    · rename_i hname
      rw [← hname, ← Option.some.inj hvalue]
      exact hp
    · exact ht value hvalue
  exact hall value h

end Entries

namespace Disk.Node

/-! ## Proper trees -/

/-- The list of a proper tree says what is where. -/
theorem Proper.mem_listing {n : Node} (h : n.Proper) {r : Location} {i : Item} :
    (r, i) ∈ n.listing ↔ r ≠ [] ∧ n.layout r = some i := by
  induction h generalizing r with
  | file bytes executable | link target =>
    cases r <;> simp [listing, layout_child, child?, Node.entries]
  | @dir entries hsorted hnames hproper ih =>
    have hdir : (Node.dir entries).Proper := .dir hsorted hnames hproper
    rw [listing, mem_listingOf]
    cases r with
    | nil => simp
    | cons name rest =>
      rw [layout_cons]
      have hitems {e : String × Node} (he : e ∈ entries) :
          (rest, i) ∈ e.2.items ↔ e.2.layout rest = some i := by
        rw [items, List.mem_cons, ih e he]
        cases rest with
        | nil => simp [layout, at?_nil, eq_comm]
        | cons next rest => simp
      constructor
      · rintro ⟨e, he, rest', heq, hmem⟩
        obtain ⟨rfl, rfl⟩ := List.cons.inj heq
        exact ⟨List.cons_ne_nil _ _, e.2, hdir.get?_iff.mpr he, (hitems he).mp hmem⟩
      · rintro ⟨-, n, hn, hrest⟩
        have he := hdir.get?_iff.mp hn
        exact ⟨(name, n), he, rest, rfl, (hitems he).mpr hrest⟩

/-- The names that lead to something in a proper tree are proper. -/
theorem Proper.isName {n : Node} (h : n.Proper) {r : Location} (hr : n.layout r ≠ none) :
    ∀ name ∈ r, IsName name := by
  induction h generalizing r with
  | file bytes executable | link target =>
    cases r with
    | nil => simp
    | cons name rest => exact (hr rfl).elim
  | @dir entries hsorted hnames hproper ih =>
    have hdir : (Node.dir entries).Proper := .dir hsorted hnames hproper
    cases r with
    | nil => simp
    | cons name rest =>
      obtain ⟨i, hi⟩ := Option.ne_none_iff_exists'.mp hr
      obtain ⟨n, hn, hrest⟩ := (layout_cons name rest entries i).mp hi
      have he := hdir.get?_iff.mp hn
      rw [List.forall_mem_cons]
      exact ⟨hnames _ he, ih _ he (by rw [hrest]; exact Option.some_ne_none _)⟩

/-- Forcing a proper node in under proper names keeps a tree proper. -/
theorem Proper.force {new : Node} (hnew : new.Proper) : ∀ {l : Location} {n : Node}, n.Proper →
    (∀ name ∈ l, IsName name) → (Node.force new l n).Proper
  | [], _, _, _ => hnew
  | name :: rest, n, h, hl => by
    have hentries : (Node.dir n.entries).Proper := by
      cases n with
      | dir entries => exact h
      | file bytes executable | link target => exact proper_emptyDir
    have hchild : ((n.child? name).getD (.dir [])).Proper := by
      cases hc : n.child? name with
      | none => exact proper_emptyDir
      | some c => exact h.at? (l := [name]) (by rw [Node.at?, hc]; rfl)
    rw [List.forall_mem_cons] at hl
    exact proper_insert hentries hl.1 (Proper.force hnew hchild hl.2)

end Disk.Node

namespace Repository

open Disk Node

/-! ## Texts of commits -/

/-- The number that digits to the base sixteen stand for. -/
def hexValue (digits : List Char) : Nat :=
  digits.foldl (fun n c => 16 * n + (hexDigit? c).getD 0) 0

theorem hexDigit?_digitChar {k : Nat} (h : k < 16) : hexDigit? k.digitChar = some k := by
  decide +revert

theorem hexValue_toDigits (n : Nat) : hexValue (Nat.toDigits 16 n) = n := by
  induction n using Nat.strongRecOn with
  | ind n ih =>
    rw [Nat.toDigits_eq_if (by decide)]
    split
    · rename_i hn
      simp [hexValue, hexDigit?_digitChar hn]
    · have hdiv := ih (n / 16) (by omega)
      rw [hexValue] at hdiv
      rw [hexValue, List.foldl_append, hdiv, List.foldl_cons, List.foldl_nil,
        hexDigit?_digitChar (Nat.mod_lt n (by decide)), Option.getD_some, Nat.div_add_mod]

theorem hexValue_replicate (k : Nat) (digits : List Char) :
    hexValue (List.replicate k '0' ++ digits) = hexValue digits := by
  induction k with
  | zero => rfl
  | succ k ih =>
    rw [List.replicate_succ, List.cons_append, hexValue, List.foldl_cons, ← ih]
    rfl

/-- A commit is known from its text. -/
theorem commitText_inj {a b : CommitId} (h : commitText a = commitText b) : a = b := by
  have hvalue (id : CommitId) : hexValue ((commitText id).toList.drop 4) = id := by
    rw [toList_commitText, List.append_assoc]
    exact (hexValue_replicate _ _).trans (hexValue_toDigits id)
  rw [← hvalue a, h, hvalue b]

theorem commitOfText?_eq_some {h : History} {text : String} {id : CommitId} :
    commitOfText? h text = some id ↔ id < h.commits.length ∧ text = commitText id := by
  constructor
  · intro hfind
    obtain ⟨htext, hmem⟩ := List.find?_eq_some_iff_append.mp hfind
    exact ⟨List.mem_range.mp (List.mem_of_find?_eq_some hfind), (beq_iff_eq.mp htext).symm⟩
  · rintro ⟨hid, rfl⟩
    obtain ⟨id', hid'⟩ : ∃ id', commitOfText? h (commitText id) = some id' :=
      Option.isSome_iff_exists.mp
        (List.find?_isSome.mpr ⟨id, List.mem_range.mpr hid, beq_self_eq_true _⟩)
    rw [hid', commitText_inj (beq_iff_eq.mp (List.find?_some hid' : _))]

theorem firstLine_append {text : String} (h : '\n' ∉ text.toList) :
    firstLine (text ++ "\n") = text := by
  have hall : ∀ c ∈ text.toList, decide (c ≠ '\n') = true := fun c hc =>
    decide_eq_true fun hn => h (hn ▸ hc)
  rw [firstLine, String.toList_append, List.takeWhile_append_of_pos hall]
  simp

theorem newline_not_mem_commitText (id : CommitId) : '\n' ∉ (commitText id).toList := fun h =>
  absurd (isKeyChar_of_mem_commitText _ h) (by decide)

/-- The commit in the file at a location. -/
def commitAt? (h : History) (dir : Node) (l : Location) : Option CommitId :=
  (textAt? dir l).bind fun t => commitOfText? h (firstLine t)

theorem textAt?_textFile {dir : Node} {l : Location} {text : String}
    (h : dir.at? l = some (textFile text)) : textAt? dir l = some text := by
  rw [textAt?, h]
  exact fromUTF8?_toUTF8 text

theorem commitAt?_commitText {h : History} {dir : Node} {l : Location} {id : CommitId}
    (hid : id < h.commits.length) (hl : dir.at? l = some (textFile (commitText id ++ "\n"))) :
    commitAt? h dir l = some id := by
  rw [commitAt?, textAt?_textFile hl, Option.bind_some,
    firstLine_append (newline_not_mem_commitText id)]
  exact commitOfText?_eq_some.mpr ⟨hid, rfl⟩

theorem commitAt?_congr (h : History) {dir dir' : Node} {l : Location}
    (hl : dir'.at? l = dir.at? l) : commitAt? h dir' l = commitAt? h dir l := by
  rw [commitAt?, commitAt?, textAt?, textAt?, hl]

/-- A commit that was read is known. -/
theorem lt_length_of_commitAt? {h : History} {dir : Node} {l : Location} {id : CommitId}
    (hid : commitAt? h dir l = some id) : id < h.commits.length := by
  obtain ⟨text, -, htext⟩ := Option.bind_eq_some_iff.mp hid
  exact (commitOfText?_eq_some.mp htext).1

theorem commitAt?_mono {h h' : History} (hgrow : h.commits <+: h'.commits) {dir : Node}
    {l : Location} {id : CommitId} (hid : commitAt? h dir l = some id) :
    commitAt? h' dir l = some id := by
  obtain ⟨text, ht, htext⟩ := Option.bind_eq_some_iff.mp hid
  obtain ⟨hlt, heq⟩ := commitOfText?_eq_some.mp htext
  rw [commitAt?, ht, Option.bind_some]
  exact commitOfText?_eq_some.mpr ⟨hlt.trans_le hgrow.length_le, heq⟩

/-! ## Branches -/

/-- Whether the tree with the files of the branches is proper. -/
def ProperBranches (dir : Node) : Prop := ∀ n, dir.at? branchesDir = some n → n.Proper

/-- The files of branches are listed with the commits that they name. -/
theorem mem_listing_branches {h : History} {n : Node} (hn : n.Proper) (e : String × CommitId) :
    (e ∈ n.listing.filterMap fun (names, item) =>
      match item with
      | .file bytes _ =>
        ((String.fromUTF8? bytes).bind fun t => commitOfText? h (firstLine t)).map
          fun id => (Snapshot.pathOf names, id)
      | _ => none) ↔ commitAt? h n (Snapshot.locationOf e.1) = some e.2 := by
  rw [List.mem_filterMap]
  constructor
  · rintro ⟨⟨names, item⟩, hmem, he⟩
    obtain ⟨hne, hl⟩ := hn.mem_listing.mp hmem
    cases item with
    | dir | link target => cases he
    | file bytes executable =>
      obtain ⟨id, hid, rfl⟩ := Option.map_eq_some_iff.mp he
      have hnames : ∀ name ∈ names, '/' ∉ name.toList := fun name hname =>
        (hn.isName (by rw [hl]; exact Option.some_ne_none _) name hname).2.2.2
      dsimp only
      rw [Snapshot.locationOf_pathOf hne hnames, commitAt?, textAt?, layout_eq_file.mp hl]
      exact hid
  · intro he
    obtain ⟨text, ht, hid⟩ := Option.bind_eq_some_iff.mp he
    rw [textAt?] at ht
    split at ht
    · rename_i bytes executable hat
      refine ⟨(Snapshot.locationOf e.1, .file bytes executable), ?_, ?_⟩
      · exact hn.mem_listing.mpr ⟨Snapshot.locationOf_ne_nil e.1, layout_eq_file.mpr hat⟩
      · dsimp only
        rw [ht, Option.bind_some, hid, Snapshot.pathOf_locationOf]
        rfl
    · cases ht

/-- A branch stands for the commit in the file that its name leads to. -/
theorem get?_branchesOf {h : History} {dir : Node} (hdir : ProperBranches dir) {branch : String}
    {id : CommitId} :
    Entries.get? branch (branchesOf h dir) = some id ↔
      commitAt? h dir (branchesDir ++ Snapshot.locationOf branch) = some id := by
  cases hat : dir.at? branchesDir with
  | none =>
    have hnone : dir.at? (branchesDir ++ Snapshot.locationOf branch) = none := by
      rw [at?_append, hat]
      rfl
    rw [branchesOf, hat, commitAt?, textAt?, hnone]
    exact ⟨fun hid => (by cases hid), fun hid => (by cases hid)⟩
  | some n =>
    have hsame : commitAt? h dir (branchesDir ++ Snapshot.locationOf branch) =
        commitAt? h n (Snapshot.locationOf branch) := by
      rw [commitAt?, commitAt?, textAt?, textAt?, at?_append, hat]
      rfl
    rw [branchesOf, hat, hsame, ← mem_listing_branches (hdir n hat) (branch, id)]
    refine ⟨Entries.mem_of_get?_ofPairs, fun hmem => ?_⟩
    refine Entries.get?_ofPairs_of_forall ⟨_, hmem, rfl⟩ fun p hp hname => ?_
    have hp' := (mem_listing_branches (hdir n hat) p).mp hp
    rw [hname] at hp'
    exact Option.some.inj (hp'.symm.trans ((mem_listing_branches (hdir n hat) (branch, id)).mp hmem))

/-- The names that lead to the file of a branch are proper. -/
theorem isName_of_get?_branchesOf {h : History} {dir : Node} (hdir : ProperBranches dir)
    {branch : String} {id : CommitId} (hb : Entries.get? branch (branchesOf h dir) = some id) :
    ∀ name ∈ Snapshot.locationOf branch, IsName name := by
  have hat := (get?_branchesOf hdir).mp hb
  have hthere : dir.layout (branchesDir ++ Snapshot.locationOf branch) ≠ none := fun hnone => by
    rw [commitAt?, textAt?, layout_eq_none.mp hnone] at hat
    cases hat
  obtain ⟨n, hn⟩ : ∃ n, dir.at? branchesDir = some n := by
    refine Option.ne_none_iff_exists'.mp fun hnone => hthere ?_
    rw [layout_eq_none, at?_append, hnone]
    rfl
  rw [layout_append hn] at hthere
  exact (hdir n hn).isName hthere

end Repository

end Scaffold
