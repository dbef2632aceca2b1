import Scaffold.Disk.Walk
import Scaffold.Proofs.Disk.MakeDirs

/-!
# The shape of a disk

The shape of a tree is the tree with all of its files emptied. Where paths lead and what walks
come by is the same on a disk and on its shape (`stat_shape`, `walkFrom_shape`). An action is
`Blind` when it does to the shape of a disk what it does to the disk, with the same result.
-/

set_option linter.unusedSectionVars false

namespace Scaffold

open Scaffold.Path

namespace Disk

/-- An item without the bytes of a file. -/
def Item.shape : Item → Item
  | .file _ executable => .file ByteArray.empty executable
  | i => i

namespace Node

mutual

/-- A tree with all of its files emptied. -/
def shape : Node → Node
  | .file _ executable => .file ByteArray.empty executable
  | .dir entries => .dir (shapeOf entries)
  | .link target => .link target

def shapeOf : List (String × Node) → List (String × Node)
  | [] => []
  | (name, n) :: rest => (name, shape n) :: shapeOf rest

end

theorem item_shape (n : Node) : n.shape.item = n.item.shape := by
  cases n <;> simp [shape, item, Item.shape]

theorem isDir_shape (n : Node) : n.shape.isDir = n.isDir := by
  cases n <;> simp [shape, isDir]

theorem isFile_shape (n : Node) : n.shape.isFile = n.isFile := by
  cases n <;> simp [shape, isFile]

theorem get?_shapeOf (name : String) : ∀ entries : List (String × Node),
    Entries.get? name (shapeOf entries) = (Entries.get? name entries).map shape
  | [] => by rw [shapeOf]; rfl
  | (k, n) :: rest => by
    rw [shapeOf, Entries.get?, Entries.get?, get?_shapeOf name rest]
    split <;> rfl

theorem shapeOf_insert (name : String) (n : Node) : ∀ entries : List (String × Node),
    shapeOf (Entries.insert name n entries) = Entries.insert name n.shape (shapeOf entries)
  | [] => by simp [shapeOf, Entries.insert]
  | (k, m) :: rest => by
    simp only [shapeOf, Entries.insert]
    split
    · rw [shapeOf]
    · split
      · simp only [shapeOf]
      · rw [shapeOf, shapeOf_insert name n rest]

theorem at?_shape (n : Node) (l : Location) : n.shape.at? l = (n.at? l).map shape := by
  induction l generalizing n with
  | nil => rfl
  | cons name l ih =>
    cases n with
    | file bytes executable | link target =>
      rw [shape]
      rfl
    | dir entries =>
      rw [shape, at?, at?, child?, child?, Node.entries, Node.entries, get?_shapeOf]
      cases Entries.get? name entries with
      | none => rfl
      | some c => exact ih c

theorem layout_shape (n : Node) (l : Location) : n.shape.layout l = (n.layout l).map Item.shape := by
  rw [layout, layout, at?_shape, Option.map_map, Option.map_map]
  exact congrArg (Option.map · _) (funext item_shape)

theorem put_shape (new : Node) : ∀ (l : Location) (n : Node),
    put (some new.shape) l n.shape = (put (some new) l n).shape
  | [], _ => rfl
  | [_], .file .. => by simp [shape, put]
  | [_], .link _ => by simp [shape, put]
  | [name], .dir entries => by simp [shape, put, shapeOf_insert]
  | _ :: _ :: _, .file .. => by simp [shape, put]
  | _ :: _ :: _, .link _ => by simp [shape, put]
  | name :: next :: rest, .dir entries => by
    have hget := get?_shapeOf name entries
    cases hc : Entries.get? name entries with
    | none =>
      rw [hc] at hget
      simp [shape, put, hc, hget]
    | some c =>
      rw [hc] at hget
      have ih := put_shape new (next :: rest) c
      simp only [shape]
      rw [put_cons (List.cons_ne_nil next rest) hget, put_cons (List.cons_ne_nil next rest) hc, ih]
      simp only [shape, shapeOf_insert]

mutual

theorem dirCount_shape : ∀ n : Node, n.shape.dirCount = n.dirCount
  | .file .. => by simp [shape, dirCount]
  | .link _ => by simp [shape, dirCount]
  | .dir entries => by simp [shape, dirCount, dirCountIn_shapeOf entries]

theorem dirCountIn_shapeOf : ∀ entries : List (String × Node),
    dirCountIn (shapeOf entries) = dirCountIn entries
  | [] => by simp [shapeOf]
  | (name, n) :: rest => by
    simp [shapeOf, dirCountIn, dirCount_shape n, dirCountIn_shapeOf rest]

end

end Node

/-! ## Where paths lead -/

/-- A disk with all of its files emptied. -/
def shape (d : Disk) : Disk := { d with top := d.top.shape }

/-- What a path leads to, with the files emptied. -/
def Found.shape (found : Found) : Found := ⟨found.location, found.node.map Node.shape⟩

theorem walk_shape (top : Node) (followLast : Bool) (links : Nat) (cur : Location)
    (steps : List Step) :
    walk top.shape followLast links cur steps =
      (walk top followLast links cur steps).map Found.shape := by
  induction links generalizing cur steps with
  | zero => rfl
  | succ links ihl =>
    induction steps generalizing cur with
    | nil =>
      have hat := Node.at?_shape top cur
      change Except.ok (Found.mk cur (top.shape.at? cur)) = _
      rw [hat]
      rfl
    | cons step rest ihs =>
      rw [walk_cons, walk_cons, Node.layout_shape]
      cases top.layout cur with
      | none => rfl
      | some i =>
        cases i with
        | file bytes executable => rfl
        | link target => rfl
        | dir =>
          cases step with
          | here => exact ihs cur
          | up => exact ihs cur.dropLast
          | name n =>
            simp only [Option.map_some, Item.shape, Node.layout_shape]
            cases top.layout (cur ++ [n]) with
            | none => simp only [Option.map_none]; split <;> rfl
            | some i =>
              cases i with
              | file bytes executable => exact ihs (cur ++ [n])
              | dir => exact ihs (cur ++ [n])
              | link target =>
                simp only [Option.map_some, Item.shape, follower]
                split
                · rfl
                · split
                  · rfl
                  · exact ihl _ _

theorem resolve_shape (d : Disk) (followLast : Bool) (p : Path) :
    d.shape.resolve followLast p = (d.resolve followLast p).map Found.shape := by
  unfold resolve
  split
  · rfl
  · exact walk_shape ..

theorem stat_shape (d : Disk) (p : Path) :
    d.shape.stat p = (d.stat p).map fun r => (r.1, r.2.shape) := by
  unfold stat
  rw [resolve_shape]
  cases d.resolve true p with
  | error f => rfl
  | ok found =>
    obtain ⟨l, n⟩ := found
    cases n <;> rfl

theorem linkStat_shape (d : Disk) (p : Path) :
    d.shape.linkStat p = (d.linkStat p).map fun r => (r.1, r.2.shape) := by
  unfold linkStat
  rw [resolve_shape]
  cases d.resolve false p with
  | error f => rfl
  | ok found =>
    obtain ⟨l, n⟩ := found
    cases n <;> rfl

theorem isDir_shape (d : Disk) (p : Path) : d.shape.isDir p = d.isDir p := by
  unfold isDir
  rw [stat_shape]
  cases d.stat p with
  | error f => rfl
  | ok found => exact Node.isDir_shape found.2

/-! ## Walks -/

section

variable (d : Disk) {enter enter' : Enter}
  (henter : ∀ inside names location path n,
    enter' inside names location path (Node.shape n) = enter inside names location path n)

include henter

mutual

theorem visitNode_shape : ∀ (n : Node) (inside : Inside) (names : List String)
    (location : Location) (path : Path),
      visitNode d.shape enter' inside names location path n.shape =
        visitNode d enter inside names location path n
  | .file .., inside, names, location, path => by simp only [Node.shape, visitNode]
  | .dir entries, inside, names, location, path => by
    simp only [Node.shape, visitNode, visitEntries_shape entries]
  | .link target, inside, names, location, path => by
    simp only [Node.shape, visitNode, stat_shape]
    cases d.stat path with
    | error f => rfl
    | ok found => simp only [Except.map, Node.isDir_shape, henter]

theorem visitEntries_shape : ∀ (entries : List (String × Node)) (inside : Inside)
    (names : List String) (location : Location) (path : Path),
      visitEntries d.shape enter' inside names location path (Node.shapeOf entries) =
        visitEntries d enter inside names location path entries
  | [], inside, names, location, path => by simp only [Node.shapeOf, visitEntries]
  | (name, n) :: rest, inside, names, location, path => by
    simp only [Node.shapeOf, visitEntries, visitNode_shape n, visitEntries_shape rest]

end

end

theorem visit_shape (d : Disk) (links : Nat) (inside : Inside) (names : List String)
    (location : Location) (path : Path) (n : Node) :
    visit d.shape links inside names location path n.shape =
      visit d links inside names location path n := by
  induction links generalizing inside names location path n with
  | zero => rfl
  | succ links ih => exact visitNode_shape d ih n inside names location path

/-- A walk comes by the same on the shape of a disk. -/
theorem walkFrom_shape (d : Disk) (p : Path) : walkFrom d.shape p = walkFrom d p := by
  unfold walkFrom
  rw [linkStat_shape]
  have hcount : d.shape.top.dirCount = d.top.dirCount := Node.dirCount_shape d.top
  cases d.linkStat p with
  | error f => rfl
  | ok found => simp only [Except.map, hcount, visit_shape]

/-! ## Two disks of one shape -/

section

variable {d e : Disk} (h : d.shape = e.shape)

include h

/-- Paths lead to the same location, and to the same but for the bytes of files. -/
theorem stat_of_shape {p : Path} {l : Location} {n : Node} (hd : d.stat p = .ok (l, n)) :
    ∃ n', e.stat p = .ok (l, n') ∧ n'.shape = n.shape := by
  have hs := stat_shape e p
  rw [← h, stat_shape, hd] at hs
  cases he : e.stat p with
  | error f =>
    rw [he] at hs
    cases hs
  | ok found =>
    obtain ⟨l', n'⟩ := found
    rw [he] at hs
    obtain ⟨rfl, hn⟩ := Prod.mk.inj (Except.ok.inj hs)
    exact ⟨n', rfl, hn.symm⟩

theorem stat_error_of_shape {p : Path} {f : Fault} (hd : d.stat p = .error f) :
    e.stat p = .error f := by
  cases he : e.stat p with
  | error f' =>
    have hs := stat_shape e p
    rw [← h, stat_shape, hd, he] at hs
    exact congrArg _ (Except.error.inj hs).symm
  | ok found =>
    obtain ⟨n, hn, -⟩ := stat_of_shape h.symm he
    rw [hd] at hn
    cases hn

theorem resolve_of_shape {followLast : Bool} {p : Path} {found : Found}
    (hd : d.resolve followLast p = .ok found) :
    ∃ n, e.resolve followLast p = .ok ⟨found.location, n⟩ := by
  have hs := resolve_shape e followLast p
  rw [← h, resolve_shape, hd] at hs
  cases he : e.resolve followLast p with
  | error f =>
    rw [he] at hs
    cases hs
  | ok found' =>
    obtain ⟨l, n⟩ := found'
    rw [he] at hs
    obtain ⟨rfl, -⟩ := Found.mk.inj (Except.ok.inj hs)
    exact ⟨n, rfl⟩

theorem walkFrom_of_shape (p : Path) : walkFrom e p = walkFrom d p := by
  rw [← walkFrom_shape e, ← h, walkFrom_shape]

theorem layout_of_shape (l : Location) :
    (d.top.layout l).map Item.shape = (e.top.layout l).map Item.shape := by
  rw [← Node.layout_shape, ← Node.layout_shape]
  exact congrArg (fun x : Disk => x.top.layout l) h

end

/-! ## Actions -/

namespace Action

/-- Whether an action does to the shape of a disk what it does to the disk. -/
def Blind (a : Disk.Action Unit) : Prop :=
  ∀ d : Disk, a.perform d.shape = ((a.perform d).1, (a.perform d).2.shape)

theorem Blind.bind {a b : Disk.Action Unit} (ha : Blind a) (hb : Blind b) :
    Blind (a >>= fun _ => b) := by
  intro d
  rw [perform_bind, perform_bind, ha d]
  cases a.perform d with
  | mk result d₁ =>
    cases result with
    | error f => rfl
    | ok _ => exact hb d₁

/-- What a blind action does is the same on disks of one shape. -/
theorem Blind.eq_of_shape {a : Disk.Action Unit} (ha : Blind a) {d e : Disk}
    (h : d.shape = e.shape) :
    (a.perform d).1 = (a.perform e).1 ∧ (a.perform d).2.shape = (a.perform e).2.shape := by
  have hd := ha d
  rw [h, ha e] at hd
  exact ⟨(Prod.mk.inj hd).1.symm, (Prod.mk.inj hd).2.symm⟩

theorem blind_throw (f : Fault) : Blind (throw f) := fun _ => rfl

theorem blind_makeDir (p : Path) : Blind (makeDir p) := by
  intro d
  rw [perform_makeDir, perform_makeDir, resolve_shape]
  cases d.resolve false p.withoutSlash with
  | error f => rfl
  | ok found =>
    obtain ⟨l, n⟩ := found
    cases n with
    | some n => rfl
    | none =>
      have hput := Node.put_shape (.dir []) l d.top
      simp only [Except.map, Found.shape, Option.map_none, shape]
      rw [← hput]
      simp [Node.shape, Node.shapeOf]

theorem blind_ensureDir (p : Path) : Blind (ensureDir p) := by
  intro d
  rw [perform_ensureDir, perform_ensureDir, blind_makeDir, isDir_shape]
  cases (makeDir p).perform d with
  | mk result d₁ =>
    cases result with
    | ok _ => rfl
    | error f => dsimp only; split <;> rfl

theorem blind_ensureDirsFrom : ∀ ps : List Path, Blind (ensureDirsFrom ps)
  | [] => blind_throw _
  | p :: above => by
    have ih := (blind_ensureDirsFrom above).bind (blind_ensureDir p)
    intro d
    rw [perform_ensureDirsFrom_cons, perform_ensureDirsFrom_cons, blind_makeDir, isDir_shape]
    split
    · rfl
    · cases (makeDir p).perform d with
      | mk result d₁ =>
        cases result with
        | ok _ => rfl
        | error f =>
          cases f with
          | notFound => exact ih d
          | _ => dsimp only; split <;> rfl

theorem blind_makeDirs (p : Path) : Blind (makeDirs p) := blind_ensureDirsFrom _

end Action

end Disk

end Scaffold
