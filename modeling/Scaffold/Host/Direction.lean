import Scaffold.Text.Case
import Scaffold.Text.Invisible

/-!
# Names that read in both directions

Scripts that are written from right to left may stand beside others in a name as long as every
label reads in one direction: `readsOneWay` decides that for a label, and `keepDirection` for
the labels of a name. A name without such scripts and without their digits reads one way as it
is.
-/

namespace Scaffold.Host

/-- Marks that extend the character before them. -/
def isMark (c : Char) : Bool := c.toNat ≠ 0x200c && Text.inRanges Text.extenderRanges c.toNat

/-- How a character is read. -/
inductive Direction where
  | rightwards
  | leftwards
  | digit
  /-- A digit of a script that is read leftwards. -/
  | leftwardDigit
  /-- A mark is read with the character before it. -/
  | mark
  | neutral
deriving DecidableEq, Repr

/-- The scripts that are read leftwards. -/
def leftwardRanges : List (Nat × Nat) := [
  (0x590, 0x8ff), (0xfb1d, 0xfdff), (0xfe70, 0xfeff), (0x10800, 0x10fff), (0x1e800, 0x1efff)]

/-- The digits of these scripts. -/
def leftwardDigitRanges : List (Nat × Nat) := [
  (0x660, 0x669), (0x66b, 0x66c), (0x6dd, 0x6dd), (0x8e2, 0x8e2), (0x10d30, 0x10d39),
  (0x10e60, 0x10e7e)]

/-- How a character is read. -/
def Direction.of (c : Char) : Direction :=
  if isMark c then .mark
  else if c.isDigit || (0x6f0 ≤ c.toNat && c.toNat ≤ 0x6f9) then .digit
  else if Text.inRanges leftwardDigitRanges c.toNat then .leftwardDigit
  else if !Text.isAlphabetic c then .neutral
  else if Text.inRanges leftwardRanges c.toNat then .leftwards
  else .rightwards

/-- Whether a label reads in one direction: the one of its first character. -/
def readsOneWay (label : List Char) : Bool :=
  let ds := label.map Direction.of
  let last := (ds.reverse.dropWhile (· = .mark)).head?
  match ds.head? with
  | none => true
  | some .leftwards =>
    (last = some .leftwards || last = some .digit || last = some .leftwardDigit) &&
      !ds.contains .rightwards && !(ds.contains .digit && ds.contains .leftwardDigit)
  | some .rightwards =>
    (last = some .rightwards || last = some .digit) &&
      !ds.contains .leftwards && !ds.contains .leftwardDigit
  | some _ => false

/-- Whether a character makes it matter how a name is read. -/
def hasDirection (c : Char) : Bool :=
  Direction.of c = .leftwards || Direction.of c = .leftwardDigit

/-- Whether the labels of a name each read in one direction, if it matters. -/
def keepDirection (labels : List (List Char)) : Bool :=
  !labels.any (·.any hasDirection) || labels.all readsOneWay

end Scaffold.Host
