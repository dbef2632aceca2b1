import Scaffold.Proofs.Copy.Mount
import Scaffold.Proofs.Disk.Lookup

/-!
# Placing items next to each other

An item can be placed at a location when nothing is in its way : no file above it, nor in the place
of a directory, and no directory in the place of a file (`Layout.takes`). Items are placed one after
the other up to the first that cannot be (`Layout.placeAll`).

Locations that part ways have directories in common and nothing else. An item that is placed makes
such directories, but nothing that was in the way of another item goes, and nothing comes in its
way (`Layout.takes_place`). So items in places that part ways can be placed in any order
(`Layout.place_comm`), and two lists of them as well, also when one of them or both end early
(`Layout.placeAll_comm`).
-/

namespace Scaffold

namespace Disk

/-- Whether neither of two locations is at or below the other one. -/
def PartWays (a b : Location) : Prop := ¬a <+: b ∧ ¬b <+: a

theorem PartWays.symm {a b : Location} (h : PartWays a b) : PartWays b a := And.symm h

theorem PartWays.ne {a b : Location} (h : PartWays a b) : a ≠ b :=
  fun heq => h.1 (heq ▸ List.prefix_rfl)

/-- What is below locations that part ways parts ways. -/
theorem PartWays.append {a b : Location} (h : PartWays a b) (r s : Location) :
    PartWays (a ++ r) (b ++ s) := by
  have hne {a b : Location} (h : PartWays a b) (r s : Location) : ¬a ++ r <+: b ++ s := fun hp =>
    (List.prefix_or_prefix_of_prefix ((List.prefix_append a r).trans hp)
      (List.prefix_append b s)).elim h.1 h.2
  exact ⟨hne h r s, hne h.symm s r⟩

namespace Layout

/-- Whether there can be a directory at a location. -/
def takesDir (l : Location) (layout : Layout) : Bool :=
  l.inits.all fun above => !(layout above).any Item.isFile

/-- Whether an item can be placed at a location. -/
def takes (l : Location) (item : Item) (layout : Layout) : Bool :=
  if item.isDir then layout.takesDir l
  else layout.takesDir l.dropLast && !(layout l).any Item.isDir

/-- Places items up to the first one that something is in the way of; whether all of them were
placed, and what there is then. -/
def placeAll : List (Location × Item) → Layout → Bool × Layout
  | [], layout => (true, layout)
  | e :: rest, layout =>
    if layout.takes e.1 e.2 then placeAll rest (layout.place e.1 e.2) else (false, layout)

variable {layout layout' : Layout} {a b : Location}

/-! ## One item -/

theorem takesDir_iff :
    layout.takesDir a = true ↔ ∀ above, above <+: a → (layout above).any Item.isFile = false := by
  simp only [takesDir, List.all_eq_true, List.mem_inits, Bool.not_eq_true']

theorem takesDir_concat (name : String) :
    layout.takesDir (a ++ [name]) =
      (layout.takesDir a && !(layout (a ++ [name])).any Item.isFile) := by
  rw [Bool.eq_iff_iff, Bool.and_eq_true_iff, Bool.not_eq_true', takesDir_iff, takesDir_iff]
  simp only [List.prefix_concat_iff]
  constructor
  · intro h
    exact ⟨fun above habove => h above (Or.inr habove), h _ (Or.inl rfl)⟩
  · rintro ⟨habove, hname⟩ above (rfl | h)
    · exact hname
    · exact habove above h

/-- A location whose way is not blocked is missing because nothing is there. -/
theorem missing_eq (layout : Layout) (l : Location) :
    layout.missing l = if layout.takesDir l then .notFound else .notDirectory := by
  have hany : (l.inits.any fun above => (layout above).any Item.isFile) = !layout.takesDir l := by
    rw [takesDir, List.not_all_eq_any_not]
    simp
  rw [missing, hany]
  cases layout.takesDir l <;> rfl

theorem takesDir_congr (h : ∀ above, above <+: a →
    (layout above).any Item.isFile = (layout' above).any Item.isFile) :
    layout.takesDir a = layout'.takesDir a := by
  rw [Bool.eq_iff_iff, takesDir_iff, takesDir_iff]
  exact forall₂_congr fun above habove => by rw [h above habove]

theorem takes_congr (item : Item)
    (h : ∀ above, above <+: a →
      (layout above).any Item.isFile = (layout' above).any Item.isFile)
    (ha : layout a = layout' a) : layout.takes a item = layout'.takes a item := by
  unfold takes
  rw [takesDir_congr h, ha, takesDir_congr fun above habove =>
    h above (habove.trans (List.dropLast_prefix a))]

/-- What is above an item that can be placed is no file. -/
theorem not_isFile_of_takes {item : Item} (h : layout.takes a item = true) {above : Location}
    (habove : above <+: a) (hne : above ≠ a) : (layout above).any Item.isFile = false := by
  unfold takes at h
  split at h
  · exact takesDir_iff.mp h above habove
  · obtain ⟨rest, rfl⟩ := habove
    have hrest : rest ≠ [] := fun hrest => hne (by rw [hrest, List.append_nil])
    refine takesDir_iff.mp (Bool.and_eq_true_iff.mp h).1 above ?_
    rw [List.dropLast_append_of_ne_nil hrest]
    exact List.prefix_append ..

/-- What is placed elsewhere does not come in the way of an item, nor does it clear its way. -/
theorem takes_place (h : PartWays a b) {x : Item} (hx : layout.takes a x = true) (y : Item) :
    (layout.place a x).takes b y = layout.takes b y := by
  refine takes_congr y (fun above habove => ?_) ?_
  · have hne : above ≠ a := fun heq => h.1 (heq ▸ habove)
    rw [place, if_neg hne]
    split
    · rename_i hpre
      exact (not_isFile_of_takes hx hpre hne).symm
    · rfl
  · rw [place, if_neg h.ne.symm, if_neg h.2]

/-- Items in places that part ways can be placed in any order. -/
theorem place_comm (h : PartWays a b) (x y : Item) (layout : Layout) :
    (layout.place a x).place b y = (layout.place b y).place a x := by
  funext l
  unfold place
  by_cases ha : l = a
  · subst ha
    rw [if_neg h.ne, if_neg h.1, if_pos rfl, if_pos rfl]
  · rw [if_neg ha, if_neg ha]
    by_cases hb : l = b
    · subst hb
      rw [if_pos rfl, if_neg h.2, if_pos rfl]
    · rw [if_neg hb, if_neg hb]
      split_ifs <;> rfl

/-! ## Items one after the other -/

theorem placeAll_append (others : List (Location × Item)) :
    ∀ (items : List (Location × Item)) (layout : Layout), placeAll (items ++ others) layout =
      if (placeAll items layout).1 then placeAll others (placeAll items layout).2
      else placeAll items layout
  | [], _ => rfl
  | e :: items, layout => by
    rw [List.cons_append, placeAll, placeAll]
    split
    · exact placeAll_append others items _
    · rfl

theorem takes_placeAll (item : Item) :
    ∀ {items : List (Location × Item)} {layout : Layout}, (∀ e ∈ items, PartWays e.1 b) →
      (placeAll items layout).2.takes b item = layout.takes b item
  | [], _, _ => rfl
  | e :: items, layout, h => by
    obtain ⟨he, hrest⟩ := List.forall_mem_cons.mp h
    rw [placeAll]
    split
    · rename_i htakes
      rw [takes_placeAll item hrest, takes_place he htakes]
    · rfl

/-- An item can as well be placed before others as after them. -/
theorem placeAll_place {item : Item} :
    ∀ {items : List (Location × Item)} {layout : Layout}, (∀ e ∈ items, PartWays e.1 b) →
      layout.takes b item = true →
      placeAll items (layout.place b item) =
        ((placeAll items layout).1, (placeAll items layout).2.place b item)
  | [], _, _, _ => rfl
  | e :: items, layout, h, hitem => by
    obtain ⟨he, hrest⟩ := List.forall_mem_cons.mp h
    rw [placeAll, placeAll, takes_place he.symm hitem]
    split
    · rename_i htakes
      rw [← place_comm he, placeAll_place hrest]
      rw [takes_place he htakes, hitem]
    · rfl

/-- Two lists of items in places that part ways can be placed in any order. Each of them comes
as far as it would have come alone. -/
theorem placeAll_comm {items : List (Location × Item)} :
    ∀ {others : List (Location × Item)} {layout : Layout},
      (∀ e ∈ items, ∀ e' ∈ others, PartWays e.1 e'.1) →
      placeAll others (placeAll items layout).2 =
        ((placeAll others layout).1, (placeAll items (placeAll others layout).2).2)
  | [], _, _ => rfl
  | e' :: others, layout, h => by
    have he' : ∀ e ∈ items, PartWays e.1 e'.1 := fun e he => h e he e' List.mem_cons_self
    have hrest : ∀ e ∈ items, ∀ e' ∈ others, PartWays e.1 e'.1 := fun e he other ho =>
      h e he other (List.mem_cons_of_mem e' ho)
    rw [placeAll, takes_placeAll e'.2 he', placeAll]
    split
    · rename_i htakes
      rw [← placeAll_comm hrest, placeAll_place he' htakes]
    · rfl

end Layout

end Disk

end Scaffold
