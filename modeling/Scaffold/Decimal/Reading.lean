/-!
# Reading decimal numbers

`readFloat?` reads a sign, digits with an optional point and an optional exponent, and the
words for infinity and not-a-number in any case. `readInt?` reads a sign and digits.
-/

namespace Scaffold.Decimal

/-- The value of digits in a base up to sixteen; none if one is no digit of the base or
there are none. -/
def readDigits? (base : Nat) (digits : List Char) : Option Nat :=
  if digits.isEmpty then none
  else
    digits.foldl (fun acc c => acc.bind fun n =>
      let d :=
        if c.isDigit then c.toNat - 48
        else if 'a' ≤ c ∧ c ≤ 'f' then c.toNat - 87
        else if 'A' ≤ c ∧ c ≤ 'F' then c.toNat - 55
        else base
      if d < base then some (n * base + d) else none) (some 0)

/-- Splits off a sign; true for minus. -/
def splitSign : List Char → Bool × List Char
  | '-' :: rest => (true, rest)
  | '+' :: rest => (false, rest)
  | rest => (false, rest)

/-- Reads an integer with an optional sign. -/
def readInt? (text : List Char) : Option Int :=
  let (negative, digits) := splitSign text
  (readDigits? 10 digits).map fun n => if negative then -(n : Int) else n

/-- Reads an exponent after its letter; a text without one stands for zero. -/
def readExponent? : List Char → Option Int
  | [] => some 0
  | c :: rest => if c = 'e' ∨ c = 'E' then readInt? rest else none

/-- The double nearest to `digits · 10 ^ exponent`. -/
def nearest (digits : Nat) (exponent : Int) : Float :=
  if digits = 0 then 0.0
  else if exponent < 0 then Float.ofScientific digits true (-exponent).toNat
  else if exponent > 400 then 1.0 / 0.0
  else Float.ofScientific digits false exponent.toNat

/-- Reads a double. -/
def readFloat? (text : List Char) : Option Float :=
  let (negative, rest) := splitSign text
  let signed (x : Float) := if negative then -x else x
  let word := (String.ofList rest).toLower
  if word = "inf" ∨ word = "infinity" then some (signed (1.0 / 0.0))
  else if word = "nan" then some (0.0 / 0.0)
  else
    let whole := rest.takeWhile Char.isDigit
    let rest := rest.dropWhile Char.isDigit
    let (places, rest) :=
      match rest with
      | '.' :: rest => (rest.takeWhile Char.isDigit, rest.dropWhile Char.isDigit)
      | rest => ([], rest)
    match readDigits? 10 (whole ++ places), readExponent? rest with
    | some digits, some exponent =>
      let exponent := max (-5000) (min 5000 exponent)
      some (signed (nearest digits (exponent - places.length)))
    | _, _ => none

end Scaffold.Decimal
