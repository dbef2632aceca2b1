import Mathlib.Data.List.Basic
import Mathlib.Data.Nat.Bitwise
import Scaffold.Text.Case

/-!
# Case mappings leave alone what they give

A case mapping changes some code points and gives others. Of those that it gives it changes none
(`Settles.apart`) : for tables of this size that is seen at once when each set of code points is
written as a number with one bit for each of them (`bits`). So every character that a mapping gives
for another one is its own mapping (`Settles.mapChar_of_mem`), in lower case
(`lowerChar_of_mem`) and in upper case (`upperChar_of_mem`).
-/

namespace Scaffold.Text

/-! ## Sets of code points -/

/-- A set of code points, as the number whose bits are set at them. -/
def bits (codes : List Nat) : Nat := codes.foldr (fun code set => 1 <<< code ||| set) 0

theorem testBit_bits (codes : List Nat) (n : Nat) :
    (bits codes).testBit n = true ↔ n ∈ codes := by
  induction codes with
  | nil => simp [bits]
  | cons code codes ih =>
    rw [bits, List.foldr_cons, Nat.testBit_or, Nat.one_shiftLeft, Nat.testBit_two_pow,
      Bool.or_eq_true, decide_eq_true_iff, List.mem_cons, eq_comm]
    exact or_congr_right ih

theorem not_mem_of_bits {a b : List Nat} (h : bits a &&& bits b = 0) {n : Nat} (hn : n ∈ a) :
    n ∉ b := by
  intro hb
  have hbit : (bits a &&& bits b).testBit n = true := by
    rw [Nat.testBit_and, (testBit_bits a n).mpr hn, (testBit_bits b n).mpr hb, Bool.and_self]
  rw [h, Nat.zero_testBit] at hbit
  cases hbit

/-! ## Tables -/

namespace CaseRun

/-- The code points of a run. -/
def codes (run : CaseRun) : List Nat :=
  List.range' run.first ((run.last - run.first) / run.step + 1) run.step

/-- The code point that a run gives for one of its own. -/
def image (run : CaseRun) (code : Nat) : Nat := ((code : Int) + run.shift).toNat

theorem mem_codes_of_holds {run : CaseRun} {code : Nat} (h : run.holds code = true) :
    code ∈ run.codes := by
  simp only [holds, Bool.and_eq_true, decide_eq_true_eq, beq_iff_eq] at h
  obtain ⟨⟨hfirst, hlast⟩, hmod⟩ := h
  rw [codes, List.mem_range']
  refine ⟨(code - run.first) / run.step, ?_, ?_⟩
  · exact Nat.lt_succ_of_le (Nat.div_le_div_right (Nat.sub_le_sub_right hlast run.first))
  · have hdiv := Nat.div_add_mod (code - run.first) run.step
    omega

end CaseRun

section Tables

variable (runs : List CaseRun) (expansions : List (Nat × List Nat))

/-- The code points that a mapping changes. -/
def changedBy : List Nat := runs.flatMap CaseRun.codes ++ expansions.map (·.1)

/-- The code points that a mapping gives for those that it changes. -/
def givenBy : List Nat := runs.flatMap (fun run => run.codes.map run.image) ++ expansions.flatMap (·.2)

variable {runs expansions} {code n : Nat}

theorem mapCode_of_not_mem (h : code ∉ changedBy runs expansions) :
    mapCode runs expansions code = [code] := by
  rw [changedBy, List.mem_append, not_or] at h
  have hruns : runs.find? (·.holds code) = none := by
    rw [List.find?_eq_none]
    intro run hrun hholds
    exact h.1 (List.mem_flatMap.mpr ⟨run, hrun, CaseRun.mem_codes_of_holds hholds⟩)
  have hexpansions : expansions.find? (·.1 == code) = none := by
    rw [List.find?_eq_none]
    intro e he heq
    exact h.2 (List.mem_map.mpr ⟨e, he, beq_iff_eq.mp heq⟩)
  rw [mapCode, hruns, hexpansions]
  rfl

/-- A mapping gives a code point of its table, or it changes nothing. -/
theorem mem_givenBy_or (h : n ∈ mapCode runs expansions code) :
    n ∈ givenBy runs expansions ∨ mapCode runs expansions code = [code] := by
  unfold mapCode at h ⊢
  split at h
  · rename_i run hrun
    have hholds : run.holds code = true := List.find?_some (p := fun run : CaseRun => run.holds code) hrun
    obtain rfl : n = run.image code := List.mem_singleton.mp h
    refine Or.inl (List.mem_append_left _ (List.mem_flatMap.mpr ⟨run, ?_, ?_⟩))
    · exact List.mem_of_find?_eq_some hrun
    · exact List.mem_map_of_mem (CaseRun.mem_codes_of_holds hholds)
  · rename_i hrun
    cases he : expansions.find? (·.1 == code) with
    | none => exact Or.inr rfl
    | some e =>
      rw [he] at h
      refine Or.inl (List.mem_append_right _ (List.mem_flatMap.mpr ⟨e, ?_, h⟩))
      exact List.mem_of_find?_eq_some he

end Tables

/-! ## Characters -/

/-- The mapping of one character, by a plain one for ASCII characters and by tables for others. -/
def mapChar (plain : Char → Char) (runs : List CaseRun) (expansions : List (Nat × List Nat))
    (c : Char) : List Char :=
  if c.val < 128 then [plain c] else (mapCode runs expansions c.toNat).map Char.ofNat

theorem toNat_ofNat {n : Nat} (h : n.isValidChar) : (Char.ofNat n).toNat = n := by
  rw [Char.ofNat, dif_pos h]
  rfl

/-- What makes a mapping leave alone all that it gives. -/
structure Settles (plain : Char → Char) (runs : List CaseRun) (expansions : List (Nat × List Nat)) :
    Prop where
  apart : bits (givenBy runs expansions) &&& bits (changedBy runs expansions) = 0
  valid : ∀ n ∈ givenBy runs expansions, n.isValidChar
  plain_plain : ∀ n < 128, (plain (Char.ofNat n)).val < 128 ∧
    plain (plain (Char.ofNat n)) = plain (Char.ofNat n)
  mem_of_plain_ne : ∀ n < 128, plain (Char.ofNat n) ≠ Char.ofNat n → n ∈ changedBy runs expansions
  ne_nil : ∀ e ∈ expansions, e.2 ≠ []

namespace Settles

variable {plain : Char → Char} {runs : List CaseRun} {expansions : List (Nat × List Nat)}

theorem mapChar_of_not_mem (h : Settles plain runs expansions) {c : Char}
    (hc : c.toNat ∉ changedBy runs expansions) : mapChar plain runs expansions c = [c] := by
  unfold mapChar
  split_ifs with hascii
  · by_contra hne
    refine hc (h.mem_of_plain_ne c.toNat hascii ?_)
    rw [Char.ofNat_toNat]
    exact fun hsame => hne (congrArg ([·]) hsame)
  · rw [mapCode_of_not_mem hc, List.map_singleton, Char.ofNat_toNat]

/-- Every character that a mapping gives for one character is its own mapping. -/
theorem mapChar_of_mem (h : Settles plain runs expansions) {c d : Char}
    (hd : d ∈ mapChar plain runs expansions c) : mapChar plain runs expansions d = [d] := by
  by_cases hascii : c.val < 128
  · rw [mapChar, if_pos hascii, List.mem_singleton] at hd
    obtain ⟨hlt, hsame⟩ := h.plain_plain c.toNat hascii
    rw [Char.ofNat_toNat] at hlt hsame
    rw [hd, mapChar, if_pos hlt, hsame]
  · have hmap := hd
    rw [mapChar, if_neg hascii] at hmap
    obtain ⟨n, hn, rfl⟩ := List.mem_map.mp hmap
    rcases mem_givenBy_or hn with hgiven | hsame
    · have hn : (Char.ofNat n).toNat = n := toNat_ofNat (h.valid n hgiven)
      exact h.mapChar_of_not_mem (hn.symm ▸ not_mem_of_bits h.apart hgiven)
    · -- The character is left alone, so it is the one that is given.
      rw [hsame, List.mem_singleton] at hn
      rw [hn, Char.ofNat_toNat, mapChar, if_neg hascii, hsame, List.map_singleton,
        Char.ofNat_toNat]

theorem mapChar_ne_nil (h : Settles plain runs expansions) (c : Char) :
    mapChar plain runs expansions c ≠ [] := by
  have hcodes : mapCode runs expansions c.toNat ≠ [] := by
    unfold mapCode
    split
    · exact List.cons_ne_nil _ _
    · cases he : expansions.find? (·.1 == c.toNat) with
      | none => exact List.cons_ne_nil _ _
      | some e => exact h.ne_nil e (List.mem_of_find?_eq_some he)
  unfold mapChar
  split_ifs
  · exact List.cons_ne_nil _ _
  · exact mt List.map_eq_nil_iff.mp hcodes

end Settles

theorem settles_lower : Settles Char.toLower lowerRuns lowerExpansions where
  apart := by decide +kernel
  valid := by decide +kernel
  plain_plain := by decide +kernel
  mem_of_plain_ne := by decide +kernel
  ne_nil := by decide

theorem settles_upper : Settles Char.toUpper upperRuns upperExpansions where
  apart := by decide +kernel
  valid := by decide +kernel
  plain_plain := by decide +kernel
  mem_of_plain_ne := by decide +kernel
  ne_nil := by decide

/-- Lower case is in lower case. -/
theorem lowerChar_of_mem {c d : Char} (h : d ∈ lowerChar c) : lowerChar d = [d] :=
  settles_lower.mapChar_of_mem h

theorem upperChar_ne_nil (c : Char) : upperChar c ≠ [] := settles_upper.mapChar_ne_nil c

/-- Upper case is in upper case. -/
theorem upperChar_of_mem {c d : Char} (h : d ∈ upperChar c) : upperChar d = [d] :=
  settles_upper.mapChar_of_mem h

end Scaffold.Text
