import MarkupCascade.Decimal

/-!
Binary floating-point numbers of 64 bits, held exactly: a sign, a significand below `2 ^ 53` and
the power of two it counts. Rounding is to nearest with ties to the even significand, and is done
once, on a rational, so the result does not depend on how the rational is written.
-/

namespace MarkupCascade

inductive Binary64 where
  | finite (negative : Bool) (significand : Nat) (exponent : Int)
  | infinite (negative : Bool)
  | nan
deriving DecidableEq, Repr

namespace Binary64

/-- The exponent of the least positive number. -/
def minExponent : Int := -1074

/-- The exponent of the greatest finite number. -/
def maxExponent : Int := 971

def zero (negative : Bool) : Binary64 := .finite negative 0 minExponent

/-- `n / d` rounded to an integer, a half to the even one. -/
def roundHalfEven (n d : Nat) : Nat :=
  let floor := n / d
  let excess := 2 * (n % d)
  if excess < d || (excess == d && floor % 2 == 0) then floor else floor + 1

/-- Numerator and denominator of `n / d / 2 ^ q`. -/
def scale (n d : Nat) (q : Int) : Nat × Nat :=
  if 0 ≤ q then (n, d * Nat.pow 2 q.toNat) else (n * Nat.pow 2 q.natAbs, d)

/-- The exponent that leaves `n / d` with 53 significant bits, or the least one there is. -/
def exponentFor (n d : Nat) : Int :=
  -- Between `2 ^ 52` and `2 ^ 54` units of this exponent make up `n / d`.
  let q : Int := (n.log2 : Int) - d.log2 - 53
  let (a, b) := scale n d q
  max minExponent (if a < b * Nat.pow 2 53 then q else q + 1)

/-- The number nearest to a magnitude. -/
def ofRat (negative : Bool) (x : Rat) : Binary64 :=
  let n := x.num.natAbs
  if n = 0 then zero negative else
    let q := exponentFor n x.den
    let (a, b) := scale n x.den q
    let m := roundHalfEven a b
    let (m, q) := if m = Nat.pow 2 53 then (Nat.pow 2 52, q + 1) else (m, q)
    if maxExponent < q then .infinite negative else .finite negative m q

def ofInt (n : Int) : Binary64 := ofRat (n < 0) (mkRat n.natAbs 1)

def ofDecimal (negative : Bool) (d : Decimal) : Binary64 := ofRat negative d.toRat

/-- The magnitude of a finite number. -/
def magnitude (significand : Nat) (exponent : Int) : Rat :=
  if 0 ≤ exponent then mkRat (significand * Nat.pow 2 exponent.toNat : Nat) 1
  else mkRat significand (Nat.pow 2 exponent.natAbs)

/-- Numerical equality: the two zeros are equal, and nothing equals a number that is none. -/
def same : Binary64 → Binary64 → Bool
  | .finite s m q, .finite t n r => magnitude m q == magnitude n r && (s == t || m == 0)
  | .infinite s, .infinite t => s == t
  | _, _ => false

instance : BEq Binary64 := ⟨same⟩

/-- The quotient by a positive integer that is itself a number of the format. -/
def divNat (x : Binary64) (d : Nat) : Binary64 :=
  match x with
  | .finite s m q => let v := magnitude m q; ofRat s (mkRat v.num (v.den * d))
  | x => x

end Binary64

end MarkupCascade
