/-!
# Entries

A table from names to values is a list of pairs kept in ascending order of the names, so
that two tables with the same content are the same list and iteration is by name.

`Entries.get?` is the view: `get?_insert` and `get?_erase` say what each operation does to
it, and they hold of every list, sorted or not.
-/

namespace Scaffold

/-- A table from names to values, in ascending order of the names. -/
abbrev Entries (α : Type) := List (String × α)

namespace Entries

variable {α : Type}

/-- The value stored under a name. -/
def get? (name : String) : Entries α → Option α
  | [] => none
  | (k, v) :: rest => if k = name then some v else get? name rest

/-- Stores a value under a name, in the place of an older one if there is one. -/
def insert (name : String) (value : α) : Entries α → Entries α
  | [] => [(name, value)]
  | (k, v) :: rest =>
    if k = name then (name, value) :: rest
    else if name < k then (name, value) :: (k, v) :: rest
    else (k, v) :: insert name value rest

/-- Removes a name. -/
def erase (name : String) : Entries α → Entries α
  | [] => []
  | (k, v) :: rest => if k = name then erase name rest else (k, v) :: erase name rest

/-- Whether a name has a value. -/
def has (name : String) (t : Entries α) : Bool := (get? name t).isSome

/-- The table of a list of pairs; of two pairs with one name the later one counts. -/
def ofPairs (pairs : List (String × α)) : Entries α :=
  pairs.foldl (fun t p => insert p.1 p.2 t) []

@[simp] theorem get?_nil (name : String) : get? name ([] : Entries α) = none := rfl

theorem get?_insert (name other : String) (value : α) (t : Entries α) :
    get? other (insert name value t) = if name = other then some value else get? other t := by
  fun_induction insert name value t with
  | case1 => rfl
  | case2 v rest => by_cases ho : name = other <;> simp [get?, ho]
  | case3 k v rest hk hlt => simp [get?]
  | case4 k v rest hk hlt ih =>
    by_cases ho : k = other
    · have hne : ¬name = other := fun h => hk (ho.trans h.symm)
      simp [get?, ho, hne]
    · simp [get?, ho, ih]

/-- Of two values under one name the later one counts. -/
theorem insert_insert (name : String) (old new : α) (t : Entries α) :
    insert name new (insert name old t) = insert name new t := by
  fun_induction insert name old t with
  | case1 => simp [insert]
  | case2 v rest => simp [insert]
  | case3 k v rest hk hlt => simp [insert, hk, hlt]
  | case4 k v rest hk hlt ih => simp [insert, hk, hlt, ih]

theorem get?_erase (name other : String) (t : Entries α) :
    get? other (erase name t) = if name = other then none else get? other t := by
  fun_induction erase name t with
  | case1 => simp [get?]
  | case2 v rest ih =>
    rw [ih]
    by_cases ho : name = other <;> simp [get?, ho]
  | case3 k v rest hk ih =>
    by_cases ho : k = other
    · have hne : ¬name = other := fun h => hk (ho.trans h.symm)
      simp [get?, ho, hne]
    · simp [get?, ho, ih]

end Entries

end Scaffold
