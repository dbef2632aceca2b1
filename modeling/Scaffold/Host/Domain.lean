import Scaffold.Host.Direction

/-!
# Names of hosts

A name is a text in which percent signs write bytes. Characters that only look different are
replaced, invisible ones left out, and some may not stand in a name at all. A label that
starts with `xn--` writes a label of other scripts with ASCII characters, and has to do so.
-/

namespace Scaffold.Host

/-- The value of a digit of base sixteen. -/
def hexValue? (c : Char) : Option Nat :=
  if c.isDigit then some (c.toNat - 48)
  else if 'a' ≤ c ∧ c ≤ 'f' then some (c.toNat - 87)
  else if 'A' ≤ c ∧ c ≤ 'F' then some (c.toNat - 55)
  else none

/-- The bytes that a text with percent signs stands for. -/
def percentDecoded : List Char → List UInt8
  | '%' :: a :: b :: rest =>
    match hexValue? a, hexValue? b with
    | some x, some y => (16 * x + y).toUInt8 :: percentDecoded rest
    | _, _ => '%'.toNat.toUInt8 :: percentDecoded (a :: b :: rest)
  | c :: rest => (String.singleton c).toUTF8.toList ++ percentDecoded rest
  | [] => []

/-- Characters that leave no trace in a name. -/
def isIgnored (c : Char) : Bool :=
  [0xad, 0x34f, 0x180b, 0x180c, 0x180d, 0x200b, 0x2060, 0x2064, 0xfeff].contains c.toNat ||
    (0xfe00 ≤ c.toNat && c.toNat ≤ 0xfe0f)

/-- A character as it counts in a name. -/
def normalChar (c : Char) : List Char :=
  if isIgnored c then []
  else if [0x3002, 0xff0e, 0xff61].contains c.toNat then ['.']
  else if 0xff01 ≤ c.toNat ∧ c.toNat ≤ 0xff5e then Text.lowerChar (Char.ofNat (c.toNat - 0xfee0))
  else Text.lowerChar c

/-- Characters that stand for several others which may not all stand in a name, and those
that describe other characters. -/
def compoundRanges : List (Nat × Nat) := [
  (0xa8, 0xa8), (0xaf, 0xaf), (0xb4, 0xb4), (0xb8, 0xb8), (0x2d8, 0x2dd), (0x37a, 0x37a),
  (0x384, 0x385), (0x115f, 0x1160), (0x17b4, 0x17b5), (0x1806, 0x1806), (0x1fbd, 0x1fbd),
  (0x1fbf, 0x1fc1), (0x1fcd, 0x1fcf), (0x1fdd, 0x1fdf), (0x1fed, 0x1fee), (0x1ffd, 0x1ffe),
  (0x2017, 0x2017), (0x2024, 0x2026), (0x203e, 0x203e), (0x2047, 0x2049), (0x2100, 0x2101),
  (0x2105, 0x2106), (0x2488, 0x249b), (0x2a74, 0x2a74), (0x2ff0, 0x2fff), (0x309b, 0x309c),
  (0x3164, 0x3164), (0x31ef, 0x31ef), (0x33c2, 0x33c2), (0x33c7, 0x33c7), (0x33d8, 0x33d8),
  (0xfe12, 0xfe13), (0xfe16, 0xfe16), (0xfe19, 0xfe19), (0xfe30, 0xfe30), (0xfe47, 0xfe4c),
  (0xfe52, 0xfe52), (0xfe55, 0xfe56), (0xfe5f, 0xfe5f), (0xfe64, 0xfe65), (0xfe68, 0xfe68),
  (0xfe6a, 0xfe6b), (0xffa0, 0xffa0), (0xffe3, 0xffe3), (0xfffc, 0xfffd)]

/-- Characters that may not stand in a name. -/
def isForbidden (c : Char) : Bool :=
  if c.toNat < 128 then c.toNat ≤ 32 || c.toNat = 127 || "#/:<>?@[\\]^|%".toList.contains c
  else
    (!Text.isPrintable c && !isMark c) || Text.isBlank c ||
      Text.inRanges compoundRanges c.toNat

/-- Whether characters may stand in a name in this order: a mark needs one to extend. -/
def mayStand (label : List Char) : Bool :=
  !label.any isForbidden && !label.head?.any isMark

/-! ## Labels of other scripts -/

/-- The weight that is left for the next number. -/
def adaptedBias (delta points : Nat) (first : Bool) : Nat :=
  let rec reduce : Nat → Nat → Nat → Nat
    | 0, d, k => k + 36 * d / (d + 38)
    | fuel + 1, d, k => if d > 455 then reduce fuel (d / 35) (k + 36) else k + 36 * d / (d + 38)
  let d := if first then delta / 700 else delta / 2
  reduce 16 (d + d / points) 0

/-- Reads one number of variable length; `weight` and `k` grow with every digit. -/
def readVariable? (bias : Nat) : List Char → Nat → Nat → Nat → Option (Nat × List Char)
  | [], _, _, _ => none
  | c :: rest, i, weight, k =>
    let digit? : Option Nat :=
      if c.isDigit then some (c.toNat - 22)
      else if 'a' ≤ c ∧ c ≤ 'z' then some (c.toNat - 97)
      else none
    match digit? with
    | none => none
    | some digit =>
      let i := i + digit * weight
      let t := if k ≤ bias then 1 else if bias + 26 ≤ k then 26 else k - bias
      if digit < t then some (i, rest) else readVariable? bias rest i (weight * (36 - t)) (k + 36)

/-- Reads the characters that are put into a label, each with its place. -/
def readInsertions? : Nat → List Char → List Nat → Nat → Nat → Nat → Option (List Nat)
  | _, [], out, _, _, _ => some out
  | 0, _, _, _, _, _ => none
  | fuel + 1, digits, out, n, i, bias =>
    match readVariable? bias digits i 1 36 with
    | none => none
    | some (next, rest) =>
      let points := out.length + 1
      let n := n + next / points
      let place := next % points
      if 0x10ffff < n then none
      else
        readInsertions? fuel rest (out.take place ++ [n] ++ out.drop place) n (place + 1)
          (adaptedBias (next - i) points out.isEmpty)

/-- The label that is written with ASCII characters. -/
def otherScript? (label : List Char) : Option (List Char) :=
  let tail := (label.reverse.takeWhile (· ≠ '-')).reverse
  let plain := if tail.length < label.length then label.take (label.length - tail.length - 1) else []
  (readInsertions? label.length tail (plain.map Char.toNat) 128 0 72).map (·.map Char.ofNat)

/-- The characters of a label; none for what may not stand in a name. -/
def readLabel? (label : List Char) : Option (List Char) :=
  match label with
  | 'x' :: 'n' :: '-' :: '-' :: rest =>
    if rest.any (·.toNat ≥ 128) then none
    else (otherScript? rest).filter fun chars => chars.any (·.toNat ≥ 128) && mayStand chars
  | label => if mayStand label then some label else none

/-- A name as it counts; none for what is no name. -/
def normalName? (text : List Char) : Option (List Char) :=
  match String.fromUTF8? ⟨(percentDecoded text).toArray⟩ with
  | none => none
  | some name => some (name.toList.flatMap normalChar)

end Scaffold.Host
