import Scaffold.Decimal.Binary
import Scaffold.Decimal.Power

/-!
# The shortest decimal that reads back

`shortest` gives the fewest digits that single out a double among its neighbours. Reading a
decimal gives the nearest double and a tie goes to the even mantissa, so the decimals that
read back as `m · 2 ^ e` fill an interval whose ends belong to it exactly if `m` is even.
On the grid of decimals with `n` digits only the two neighbours of the number have to be
tried.
-/

namespace Scaffold.Decimal

/-- The number `digits · 10 ^ exponent`. -/
structure Expansion where
  digits : Nat
  exponent : Int
deriving DecidableEq, Repr

/-- How many decimal digits a number has; one for zero. -/
def digitCount (n : Nat) : Nat := (Nat.toDigits 10 n).length

/-- The power of ten just above `num / den`, that is `p` with `10 ^ (p - 1) ≤ num / den < 10 ^ p`. -/
def magnitude (num den : Nat) : Int :=
  (digitCount (num * pow10 340 / den) : Int) - 340

/-- The decimal with `n` digits next to `mid / den` that lies between `low / den` and
`high / den`, if there is one; the nearer of two, and the even one of two as near. -/
def onGrid? (low mid high den : Nat) (closed : Bool) (exponent : Int) : Option Expansion :=
  let up := pow10 exponent.toNat
  let down := pow10 (-exponent).toNat
  let d := mid * down / (den * up)
  let fits (d : Nat) : Bool :=
    let x := d * up * den
    if closed then low * down ≤ x && x ≤ high * down else low * down < x && x < high * down
  let below := mid * down - d * up * den
  let above := (d + 1) * up * den - mid * down
  match fits d, fits (d + 1) with
  | true, true =>
    if below < above || (below == above && d % 2 == 0) then some ⟨d, exponent⟩
    else some ⟨d + 1, exponent⟩
  | true, false => some ⟨d, exponent⟩
  | false, true => some ⟨d + 1, exponent⟩
  | false, false => none

/-- Drops the zeros at the end of the digits; `fuel` bounds their number. -/
def dropZeros : Nat → Expansion → Expansion
  | 0, d => d
  | fuel + 1, d =>
    if d.digits ≠ 0 ∧ d.digits % 10 = 0 then dropZeros fuel ⟨d.digits / 10, d.exponent + 1⟩
    else d

/-- The shortest decimal that reads back as `mantissa · 2 ^ exponent`. -/
def shortest (b : Binary) : Expansion :=
  if b.mantissa = 0 then ⟨0, 0⟩
  else
    let e := b.exponent - 2
    let num := pow2 e.toNat
    let den := pow2 (-e).toNat
    let gap := if b.mantissa = pow2 52 ∧ -1074 < b.exponent then 1 else 2
    let mid := 4 * b.mantissa * num
    let low := (4 * b.mantissa - gap) * num
    let high := (4 * b.mantissa + 2) * num
    let p := magnitude mid den
    let found := (List.range 17).findSome? fun (n : Nat) =>
      onGrid? low mid high den (b.mantissa % 2 == 0) (p - (n : Int) - 1)
    dropZeros 400 (found.getD ⟨mid / den, 0⟩)

/-- The digits of a decimal with a point in their place and no exponent. -/
def Expansion.positional (d : Expansion) : String :=
  let digits := Nat.toDigits 10 d.digits
  if 0 ≤ d.exponent then
    String.ofList (if d.digits = 0 then ['0'] else digits ++ List.replicate d.exponent.toNat '0')
  else
    let places := (-d.exponent).toNat
    let padded := List.replicate (places + 1 - digits.length) '0' ++ digits
    String.ofList (padded.take (padded.length - places) ++ '.' :: padded.drop (padded.length - places))

/-- The digits with the point after the first of them and an exponent. -/
def Expansion.scientific (d : Expansion) : String :=
  let digits := Nat.toDigits 10 d.digits
  let exponent := d.exponent + digits.length - 1
  let tail := digits.drop 1
  String.ofList (digits.take 1 ++ (if tail.isEmpty then [] else '.' :: tail)) ++ s!"e{exponent}"

/-- How a double is written: the words for what is no finite number, and the exponents that
are written with a point alone. -/
structure Style where
  nan : String
  infinity : String
  negativeInfinity : String
  /-- Whether a number whose first digit stands for this power of ten has no exponent. -/
  isPositional : Int → Bool

/-- The text of a double; a whole number ends in `.0`. -/
def Style.write (style : Style) (x : Float) : String :=
  match Binary.ofFloat? x with
  | none =>
    if x.isNaN then style.nan else if x < 0.0 then style.negativeInfinity else style.infinity
  | some b =>
    let d := shortest b
    let text :=
      if d.digits = 0 ∨ style.isPositional (d.exponent + digitCount d.digits - 1) then
        if 0 ≤ d.exponent then d.positional ++ ".0" else d.positional
      else d.scientific
    if b.negative then "-" ++ text else text

end Scaffold.Decimal
