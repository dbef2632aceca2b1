import Scaffold.Proofs.Text.Pieces
import Scaffold.Terminal.Widget

/-!
# Defaults of a list of options

The defaults of a question are written between commas, with white space around them that says
nothing (`Text.trim_append`). An option that is not empty, has no comma in it and no white space at
its ends (`Question.IsPlainOption`) is read as it is written. So any list of such options is read
back from the text in which it is written, also the empty one, and what names no option is left out
wherever it stands (`Question.Display.defaultsFrom_items`).
-/

namespace Scaffold

namespace Text

/-- A text without the white space at its ends. -/
def trimmed (text : String) : String := String.ofList (trim text.toList)

end Text

namespace Question

/-- Whether an option is not empty, has no comma in it and no white space at its ends. -/
structure IsPlainOption (option : String) : Prop where
  ne_empty : option ≠ ""
  comma_not_mem : ',' ∉ option.toList
  head : ∀ c ∈ option.toList.head?, Text.isBlank c = false
  last : ∀ c ∈ option.toList.getLast?, Text.isBlank c = false

-- Written with tests of the characters that are there: a bounded quantifier over characters would
-- be decided by a search among all of them.
instance (option : String) : Decidable (IsPlainOption option) :=
  decidable_of_iff (option ≠ "" ∧ ',' ∉ option.toList ∧
      (option.toList.head?.all fun c => !Text.isBlank c) = true ∧
      (option.toList.getLast?.all fun c => !Text.isBlank c) = true) <| by
    simp only [Option.all_eq_true, Bool.not_eq_true', ← Option.mem_def]
    exact ⟨fun ⟨hne, hcomma, hhead, hlast⟩ => ⟨hne, hcomma, hhead, hlast⟩,
      fun ⟨hne, hcomma, hhead, hlast⟩ => ⟨hne, hcomma, hhead, hlast⟩⟩

/-- An item as it is written between commas: a name with white space around it. -/
structure Item where
  before : String
  name : String
  after : String

namespace Item

/-- The text of an item. -/
def written (item : Item) : String := item.before ++ item.name ++ item.after

/-- Whether what is around the name is white space. -/
def IsPadded (item : Item) : Prop :=
  (∀ c ∈ item.before.toList, Text.isBlank c = true) ∧
    ∀ c ∈ item.after.toList, Text.isBlank c = true

instance (item : Item) : Decidable item.IsPadded :=
  decidable_of_iff (item.before.toList.all Text.isBlank = true ∧
      item.after.toList.all Text.isBlank = true) <| by
    rw [List.all_eq_true, List.all_eq_true, IsPadded]

variable {item : Item}

theorem trimmed_written (hitem : item.IsPadded) (hname : IsPlainOption item.name) :
    Text.trimmed item.written = item.name := by
  have hne : item.name.toList ≠ [] := mt String.toList_eq_nil_iff.mp hname.ne_empty
  rw [Text.trimmed, written, String.toList_append, String.toList_append,
    Text.trim_append hitem.1 hitem.2 hne hname.head hname.last, String.ofList_toList]

theorem comma_not_mem_written (hitem : item.IsPadded) (hname : IsPlainOption item.name) :
    ',' ∉ item.written.toList := by
  have hblank : Text.isBlank ',' = false := by decide
  simp only [written, String.toList_append, List.mem_append, not_or]
  refine ⟨⟨fun h => ?_, hname.comma_not_mem⟩, fun h => ?_⟩
  · simp [hitem.1 ',' h] at hblank
  · simp [hitem.2 ',' h] at hblank

end Item

namespace Display

variable (d : Display)

/-- The defaults of a question, if they are written as some text. -/
def defaultsFrom (text : String) : List String := { d with default := text }.defaultOptions

/-- The options that items name, in order. -/
def named (items : List String) : List String :=
  (items.map Text.trimmed).filter fun item => d.options.contains item

theorem named_append (a b : List String) : d.named (a ++ b) = d.named a ++ d.named b := by
  rw [named, List.map_append, List.filter_append]
  rfl

theorem defaultsFrom_eq (text : String) :
    d.defaultsFrom text = d.named ((text.toList.splitOn ',').map String.ofList) := by
  rw [defaultsFrom, defaultOptions, named, Text.pieces_eq_splitOn, List.map_map]
  refine congrArg (List.filter _) (List.map_congr_left fun item _ => ?_)
  rw [Function.comp_apply, Text.trimmed, String.toList_ofList]

variable {d}

theorem mem_options_of_mem_named {items : List String} {o : String} (h : o ∈ d.named items) :
    o ∈ d.options := by
  have hcontains := (List.mem_filter.mp h).2
  rwa [List.contains_iff_mem] at hcontains

theorem named_eq_nil {items : List String} (h : ∀ item ∈ items, Text.trimmed item ∉ d.options) :
    d.named items = [] := by
  rw [named, List.filter_eq_nil_iff]
  intro item hitem
  obtain ⟨item, hmem, rfl⟩ := List.mem_map.mp hitem
  simpa using h item hmem

/-- The defaults are the options that the items between the commas name. -/
theorem defaultsFrom_intercalate (hempty : "" ∉ d.options) {items : List String}
    (hcomma : ∀ item ∈ items, ',' ∉ item.toList) :
    d.defaultsFrom (",".intercalate items) = d.named items := by
  rw [defaultsFrom_eq]
  by_cases hnil : items = []
  · -- The text of no items has one item, which is empty.
    subst hnil
    refine named_eq_nil fun item hitem => ?_
    obtain rfl := List.mem_singleton.mp hitem
    exact hempty
  · have hlist : (",".intercalate items).toList = [','].intercalate (items.map String.toList) :=
      String.toList_intercalate
    rw [hlist, List.splitOn_intercalate ',' (by simpa using hcomma) (by simpa using hnil),
      List.map_map]
    simp

theorem named_written {items : List Item} (hplain : ∀ o ∈ d.options, IsPlainOption o)
    (hitems : ∀ i ∈ items, i.name ∈ d.options ∧ i.IsPadded) :
    d.named (items.map Item.written) = items.map Item.name := by
  have htrimmed : (items.map Item.written).map Text.trimmed = items.map Item.name := by
    rw [List.map_map]
    refine List.map_congr_left fun i hi => ?_
    obtain ⟨hname, hpadded⟩ := hitems i hi
    exact Item.trimmed_written hpadded (hplain _ hname)
  rw [named, htrimmed, List.filter_eq_self]
  intro o ho
  obtain ⟨i, hi, rfl⟩ := List.mem_map.mp ho
  exact List.contains_iff_mem.mpr (hitems i hi).1

/-- All defaults are options, whatever text they are read from. If options are not empty, have no
commas in them and no white space at their ends, every list of them is read from the text in which
it is written between commas, with any white space around its members, and what names no option
says nothing wherever it stands between the commas. -/
theorem defaultsFrom_items (d : Display) :
    (∀ text, ∀ o ∈ d.defaultsFrom text, o ∈ d.options) ∧
    ((∀ o ∈ d.options, IsPlainOption o) →
      (∀ items : List Item, (∀ i ∈ items, i.name ∈ d.options ∧ i.IsPadded) →
        d.defaultsFrom (",".intercalate (items.map Item.written)) = items.map Item.name) ∧
      ∀ before others after : List String,
        (∀ item ∈ before ++ others ++ after, ',' ∉ item.toList) →
        (∀ item ∈ others, Text.trimmed item ∉ d.options) →
        d.defaultsFrom (",".intercalate (before ++ others ++ after)) =
          d.defaultsFrom (",".intercalate (before ++ after))) := by
  refine ⟨fun text o ho => ?_, fun hplain => ⟨fun items hitems => ?_,
    fun before others after hcomma hothers => ?_⟩⟩
  · rw [defaultsFrom_eq] at ho
    exact mem_options_of_mem_named ho
  · have hempty : "" ∉ d.options := fun h => (hplain "" h).ne_empty rfl
    rw [defaultsFrom_intercalate hempty, named_written hplain hitems]
    intro written hwritten
    obtain ⟨i, hi, rfl⟩ := List.mem_map.mp hwritten
    obtain ⟨hname, hpadded⟩ := hitems i hi
    exact Item.comma_not_mem_written hpadded (hplain _ hname)
  · have hempty : "" ∉ d.options := fun h => (hplain "" h).ne_empty rfl
    have hcomma' : ∀ item ∈ before ++ after, ',' ∉ item.toList := fun item hitem =>
      hcomma item (by simp only [List.mem_append] at hitem ⊢; tauto)
    rw [defaultsFrom_intercalate hempty hcomma, defaultsFrom_intercalate hempty hcomma',
      named_append, named_append, named_append, named_eq_nil hothers, List.append_nil]

/-- A question with three options. -/
def modules : Display := { options := ["auth", "db", "job queue"] }

/-- Two options in another order, one of them twice, with white space and other items between them;
and the empty list. -/
theorem defaultsFrom_items_modules :
    (∀ o ∈ modules.options, IsPlainOption o) ∧
    modules.defaultsFrom "job queue,\t auth\u2003,db ,auth" = ["job queue", "auth", "db", "auth"] ∧
    modules.defaultsFrom "" = [] ∧
    modules.defaultsFrom "auth,, Auth,auth db,db" = modules.defaultsFrom "auth,db" := by
  have hplain : ∀ o ∈ modules.options, IsPlainOption o := by decide +kernel
  obtain ⟨hwritten, hothers⟩ := (defaultsFrom_items modules).2 hplain
  refine ⟨hplain, ?_, hwritten [] (by simp), ?_⟩
  · exact hwritten [⟨"", "job queue", ""⟩, ⟨"\t ", "auth", "\u2003"⟩, ⟨"", "db", " "⟩,
      ⟨"", "auth", ""⟩] (by decide +kernel)
  · exact hothers ["auth"] ["", " Auth", "auth db"] ["db"] (by decide) (by decide)

end Display

end Question

end Scaffold
