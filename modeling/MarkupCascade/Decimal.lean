/-!
Decimals: a natural coefficient times a power of ten. They stand between the digits of a text and
the rational that the digits mean.
-/

namespace MarkupCascade

structure Decimal where
  coefficient : Nat
  exponent : Int
deriving DecidableEq, Repr

namespace Decimal

def toRat (d : Decimal) : Rat :=
  if 0 ≤ d.exponent then mkRat (d.coefficient * Nat.pow 10 d.exponent.toNat : Nat) 1
  else mkRat d.coefficient (Nat.pow 10 d.exponent.natAbs)

/-- The value of digits, with the decimal point in front of the fraction. -/
def ofDigits (whole fraction : List Char) : Decimal where
  coefficient := Nat.ofDigitChars 10 (whole ++ fraction) 0
  exponent := -fraction.length

/-- The significant digits, without zeros at the end, and the number of places that the decimal
point stands to the right of the first of them. -/
def significant (d : Decimal) : List Char × Int :=
  let digits := Nat.toDigits 10 d.coefficient
  ((digits.reverse.dropWhile (· == '0')).reverse, digits.length + d.exponent)

end Decimal

end MarkupCascade
