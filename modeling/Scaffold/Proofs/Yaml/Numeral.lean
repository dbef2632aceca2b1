import Mathlib.Tactic.IntervalCases
import Scaffold.Yaml.Scalar

/-!
# Whole numbers written in decimal

A plain scalar that is a whole number in decimal, as it is written by default, stands for this
number (`ofPlain_toString`). Its digits are read back (`readDigits?_toDigits`), and none of the
other things that a plain scalar may stand for starts in the same way.
-/

namespace Scaffold

namespace Decimal

theorem readDigits?_concat {base : Nat} {digits : List Char} (hne : digits ≠ []) (c : Char) :
    readDigits? base (digits ++ [c]) =
      (readDigits? base digits).bind fun n => (readDigits? base [c]).map (n * base + ·) := by
  unfold readDigits?
  rw [List.foldl_append]
  simp only [List.isEmpty_iff, hne, List.append_eq_nil_iff, List.cons_ne_nil, and_false, if_false,
    List.foldl_cons, List.foldl_nil]
  congr 1
  funext n
  simp only [Option.bind_some, Nat.zero_mul, Nat.zero_add]
  rw [apply_ite (Option.map (n * base + ·))]
  rfl

theorem readDigits?_digitChar {d : Nat} (h : d < 10) : readDigits? 10 [d.digitChar] = some d := by
  interval_cases d <;> rfl

theorem readDigits?_toDigits (n : Nat) : readDigits? 10 (Nat.toDigits 10 n) = some n := by
  induction n using Nat.strong_induction_on with
  | _ n ih =>
    by_cases h : n < 10
    · rw [Nat.toDigits_of_lt_base h, readDigits?_digitChar h]
    · rw [Nat.toDigits_of_base_le (by decide) (by omega), readDigits?_concat Nat.toDigits_ne_nil,
        ih (n / 10) (by omega), readDigits?_digitChar (by omega)]
      simp only [Option.bind_some, Option.map_some, Option.some.injEq]
      omega

/-- Only zero is written with a zero in front. -/
theorem head?_toDigits_ne {n : Nat} (h : 0 < n) : (Nat.toDigits 10 n).head? ≠ some '0' := by
  induction n using Nat.strong_induction_on with
  | _ n ih =>
    by_cases hlt : n < 10
    · rw [Nat.toDigits_of_lt_base hlt]
      interval_cases n <;> decide
    · rw [Nat.toDigits_of_base_le (by decide) (by omega), List.head?_append,
        Option.or_of_isSome (List.isSome_head?.mpr Nat.toDigits_ne_nil)]
      exact ih (n / 10) (by omega) (by omega)

end Decimal

namespace Yaml.Scalar

theorem readSize?_toDigits (n : Nat) : readSize? (Nat.toDigits 10 n) = some n := by
  have hread := Decimal.readDigits?_toDigits n
  rcases Nat.eq_zero_or_pos n with rfl | hpos
  · rfl
  have hhead := Decimal.head?_toDigits_ne hpos
  cases hdigits : Nat.toDigits 10 n with
  | nil => exact absurd hdigits Nat.toDigits_ne_nil
  | cons c rest =>
    rw [hdigits] at hread hhead
    have hc : c ≠ '0' := by simpa using hhead
    have hbase : base? (c :: rest) = none := by
      unfold base?
      split <;> simp_all
    have hzero : isZeroLed (c :: rest) = false := by
      unfold isZeroLed
      split <;> simp_all
    rw [readSize?, hbase, hzero]
    exact hread

/-- A text that starts with a digit or a minus sign is none of the words. -/
theorem not_word_of_head {text : String} {c : Char} {rest : List Char}
    (htext : text.toList = c :: rest) (hc : c.isDigit ∨ c = '-') :
    (text.isEmpty || isNullWord text) = false ∧ readBool? text = none := by
  have hne {word : String} {d : Char} {tail : List Char} (hword : word.toList = d :: tail)
      (hdigit : d.isDigit = false) (hminus : d ≠ '-') : text ≠ word := by
    rintro rfl
    obtain ⟨rfl, -⟩ := List.cons.inj (htext.symm.trans hword)
    rcases hc with hc | hc
    · rw [hdigit] at hc
      cases hc
    · exact hminus hc
  have hempty : text.isEmpty = false := by
    refine Bool.eq_false_iff.mpr fun h => ?_
    rw [String.isEmpty_iff.mp h] at htext
    cases htext
  have hnull : isNullWord text = false := by
    have h₁ : text ≠ "null" := hne rfl rfl (by decide)
    have h₂ : text ≠ "Null" := hne rfl rfl (by decide)
    have h₃ : text ≠ "NULL" := hne rfl rfl (by decide)
    have h₄ : text ≠ "~" := hne rfl rfl (by decide)
    simp [isNullWord, h₁, h₂, h₃, h₄]
  have hbool : readBool? text = none := by
    have h₁ : text ≠ "true" := hne rfl rfl (by decide)
    have h₂ : text ≠ "True" := hne rfl rfl (by decide)
    have h₃ : text ≠ "TRUE" := hne rfl rfl (by decide)
    have h₄ : text ≠ "false" := hne rfl rfl (by decide)
    have h₅ : text ≠ "False" := hne rfl rfl (by decide)
    have h₆ : text ≠ "FALSE" := hne rfl rfl (by decide)
    simp [readBool?, h₁, h₂, h₃, h₄, h₅, h₆]
  rw [hempty, hnull]
  exact ⟨rfl, hbool⟩

theorem readInt?_of_isDigit {text : String} {c : Char} {rest : List Char}
    (htext : text.toList = c :: rest) (hc : c.isDigit) :
    readInt? text = (readSize? (c :: rest)).map Int.ofNat := by
  unfold readInt?
  rw [htext]
  split
  · rename_i heq
    obtain ⟨rfl, rfl⟩ := List.cons.inj heq
    exact absurd hc (by decide)
  · rename_i heq
    obtain ⟨rfl, rfl⟩ := List.cons.inj heq
    exact absurd hc (by decide)
  · rfl

theorem exists_toDigits_eq_cons (n : Nat) :
    ∃ c rest, Nat.toDigits 10 n = c :: rest ∧ c.isDigit := by
  cases hdigits : Nat.toDigits 10 n with
  | nil => exact absurd hdigits Nat.toDigits_ne_nil
  | cons c rest =>
    have hmem : c ∈ Nat.toDigits 10 n := by
      rw [hdigits]
      exact List.mem_cons_self
    exact ⟨c, rest, rfl, Nat.isDigit_of_mem_toDigits (by decide) (by decide) hmem⟩

theorem readInt?_toString (n : Int) :
    readInt? (toString n) = some n ∧
      ∃ c rest, (toString n).toList = c :: rest ∧ (c.isDigit ∨ c = '-') := by
  cases n with
  | ofNat m =>
    obtain ⟨c, rest, hdigits, hc⟩ := exists_toDigits_eq_cons m
    have htext : (toString (Int.ofNat m)).toList = c :: rest := by
      rw [← hdigits]
      exact Nat.toList_repr
    refine ⟨?_, c, rest, htext, Or.inl hc⟩
    rw [readInt?_of_isDigit htext hc, ← hdigits, readSize?_toDigits]
    rfl
  | negSucc m =>
    have htext : (toString (Int.negSucc m)).toList = '-' :: Nat.toDigits 10 (m + 1) := by
      change ("-" ++ (m + 1).repr).toList = _
      rw [String.toList_append, Nat.toList_repr]
      rfl
    refine ⟨?_, '-', _, htext, Or.inr rfl⟩
    unfold readInt?
    rw [htext]
    change (readSize? (Nat.toDigits 10 (m + 1))).map (fun n => -Int.ofNat n) = _
    rw [readSize?_toDigits]
    rfl

/-- A whole number in decimal that a word of 64 bits holds stands for itself. -/
theorem ofPlain_toString {n : Int} (hlow : -2 ^ 63 ≤ n) (hhigh : n < 2 ^ 64) :
    ofPlain (toString n) = .int n := by
  obtain ⟨hread, c, rest, htext, hc⟩ := readInt?_toString n
  obtain ⟨hnull, hbool⟩ := not_word_of_head htext hc
  have hint : ofInt? n = some (.int n) := if_pos ⟨hlow, hhigh⟩
  rw [ofPlain, hnull, hbool, hread]
  simp [hint]

end Yaml.Scalar

end Scaffold
