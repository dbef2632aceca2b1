import Scaffold.Decimal.Power

/-!
# Double precision numbers as integers times powers of two

`Binary.ofFloat?` decodes a finite number into a sign, a mantissa and an exponent. The
remainder and the whole part of a quotient are computed on these exactly.
-/

namespace Scaffold.Decimal

/-- The number `± mantissa · 2 ^ exponent`. -/
structure Binary where
  negative : Bool
  mantissa : Nat
  exponent : Int
deriving DecidableEq, Repr

namespace Binary

/-- Decodes a finite number; none for infinities and what is not a number. -/
def ofFloat? (x : Float) : Option Binary :=
  let bits : Nat := x.toBits.toNat
  let fraction : Nat := bits % pow2 52
  let power : Nat := bits / pow2 52 % pow2 11
  let negative := bits / pow2 63 == 1
  if power = 2047 then none
  else if power = 0 then some ⟨negative, fraction, -1074⟩
  else some ⟨negative, fraction + pow2 52, (power : Int) - 1075⟩

/-- The number again; exact while the mantissa has at most 53 bits. -/
def toFloat (b : Binary) : Float :=
  let x := (Float.ofNat b.mantissa).scaleB b.exponent
  if b.negative then -x else x

/-- The mantissa of a number written with a smaller exponent. -/
def mantissaAt (b : Binary) (exponent : Int) : Nat :=
  b.mantissa * pow2 (b.exponent - exponent).toNat

end Binary

/-- What is left of `x` after whole multiples of `y`, with the sign of `x`. -/
def remainder (x y : Float) : Float :=
  match Binary.ofFloat? x, Binary.ofFloat? y with
  | some a, some b =>
    if b.mantissa = 0 then 0.0 / 0.0
    else
      let e := min a.exponent b.exponent
      Binary.toFloat ⟨a.negative, a.mantissaAt e % b.mantissaAt e, e⟩
  | some _, none => if y.isNaN then y else x
  | none, _ => 0.0 / 0.0

/-- The part of a number before the point. -/
def truncate (x : Float) : Float := if x < 0.0 then x.ceil else x.floor

/-- The whole quotient that leaves a remainder which is not negative. -/
def euclideanQuotient (x y : Float) : Float :=
  let q := truncate (x / y)
  if remainder x y < 0.0 then (if y > 0.0 then q - 1.0 else q + 1.0) else q

/-- The integer that a number is equal to, if there is one. -/
def toInt? (x : Float) : Option Int :=
  match Binary.ofFloat? x with
  | none => none
  | some b =>
    let magnitude? : Option Nat :=
      if 0 ≤ b.exponent then some (b.mantissa * pow2 b.exponent.toNat)
      else
        let d := pow2 (-b.exponent).toNat
        if b.mantissa % d = 0 then some (b.mantissa / d) else none
    magnitude?.map fun n => if b.negative then -(n : Int) else n

/-- The part before the point as an integer; zero for what is not finite. -/
def toIntTruncated (x : Float) : Int := (toInt? (truncate x)).getD 0

end Scaffold.Decimal
