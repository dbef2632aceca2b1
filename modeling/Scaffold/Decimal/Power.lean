/-!
# Powers

Powers of two and ten, the sizes of binary and decimal places.
-/

namespace Scaffold.Decimal

/-- A power of two. -/
def pow2 (n : Nat) : Nat := Nat.pow 2 n

/-- A power of ten. -/
def pow10 (n : Nat) : Nat := Nat.pow 10 n

end Scaffold.Decimal
