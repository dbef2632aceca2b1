import Scaffold.Decimal.Shortest

/-!
# Decimals with a fixed number of places

`fixed` rounds the exact value of a double; a tie goes to the even digit.
-/

namespace Scaffold.Decimal

/-- The quotient rounded to the nearest number, a tie to the even one. -/
def roundDiv (num den : Nat) : Nat :=
  let q := num / den
  let r := num % den
  if 2 * r < den then q else if den < 2 * r then q + 1 else if q % 2 = 0 then q else q + 1

/-- The size of a number with a number of places after the point. -/
def fixed (b : Binary) (places : Nat) : String :=
  let num := b.mantissa * pow2 b.exponent.toNat * pow10 places
  let den := pow2 (-b.exponent).toNat
  let n := roundDiv num den
  if places = 0 then toString n else Expansion.positional ⟨n, -(places : Int)⟩

/-- The size of a number with one digit before the point and a power of ten. -/
def fixedScientific (b : Binary) (places : Nat) : Nat × Int :=
  if b.mantissa = 0 then (0, 0)
  else
    let num := b.mantissa * pow2 b.exponent.toNat
    let den := pow2 (-b.exponent).toNat
    let p := magnitude num den - 1
    let shift := (places : Int) - p
    let n := roundDiv (num * pow10 shift.toNat) (den * pow10 (-shift).toNat)
    if n = pow10 (places + 1) then (n / 10, p + 1) else (n, p)

end Scaffold.Decimal
