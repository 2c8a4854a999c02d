import MarkupCascade.Binary64

/-!
Floating-point numbers as text: the fewest digits that read back to the number, and of those the
nearest to it. Numbers from `0.0001` up to below `10 ^ 16` are written positionally with at least
one digit on each side of the point, all others with a signed exponent of at least two digits.
-/

namespace MarkupCascade.Binary64

/-- The decimal exponent of the first significant digit of `n / d`. -/
def leadingPlace (n d : Nat) : Int :=
  if d ≤ n then (Nat.toDigits 10 (n / d)).length - 1
  else -(Nat.toDigits 10 ((d - 1) / n)).length

/-- The two decimals with the given last place that enclose `n / d`, the nearer one first. -/
def neighbours (n d : Nat) (place : Int) : List Decimal :=
  let (a, b) := if 0 ≤ place then (n, d * Nat.pow 10 place.toNat)
    else (n * Nat.pow 10 place.natAbs, d)
  let near := roundHalfEven a b
  let far := if near = a / b then near + 1 else a / b
  [⟨near, place⟩, ⟨far, place⟩]

/-- A finite number in full. -/
def exact (m : Nat) (q : Int) : Decimal :=
  if 0 ≤ q then ⟨m * Nat.pow 2 q.toNat, 0⟩ else ⟨m * Nat.pow 5 q.natAbs, q⟩

/-- The fewest digits that read back to a positive finite number. Seventeen digits always do; the
number in full closes the search. -/
def shortest (m : Nat) (q : Int) : Decimal :=
  let x := magnitude m q
  let n := x.num.natAbs
  let place := leadingPlace n x.den
  let candidates := (List.range 17).flatMap fun (k : Nat) => neighbours n x.den (place - k)
  (candidates.find? fun d => ofDecimal false d = .finite false m q).getD (exact m q)

/-- An exponent with its sign and at least two digits. -/
def exponentText (e : Int) : List Char :=
  let digits := Nat.toDigits 10 e.natAbs
  (if e < 0 then '-' else '+') :: (List.replicate (2 - digits.length) '0' ++ digits)

/-- Digits laid out around a decimal point that stands `point` places right of the first digit. -/
def layOut (digits : List Char) (point : Int) : List Char :=
  if -4 < point && point ≤ 16 then
    if point ≤ 0 then '0' :: '.' :: (List.replicate point.natAbs '0' ++ digits)
    else
      let whole := digits.take point.toNat
      let fraction := digits.drop point.toNat
      whole ++ List.replicate (point.toNat - digits.length) '0' ++ '.'
        :: (if fraction.isEmpty then ['0'] else fraction)
  else
    match digits with
    | [] => []
    | [d] => d :: 'e' :: exponentText (point - 1)
    | d :: rest => d :: '.' :: (rest ++ 'e' :: exponentText (point - 1))

def spell : Binary64 → List Char
  | .nan => ['n', 'a', 'n']
  | .infinite negative => sign negative ++ ['i', 'n', 'f']
  | .finite negative m q =>
    sign negative ++ if m = 0 then ['0', '.', '0'] else
      let (digits, point) := (shortest m q).significant
      layOut digits point
where
  sign (negative : Bool) : List Char := if negative then ['-'] else []

def text (x : Binary64) : String := String.ofList x.spell

/-- Reads what `text` writes, and any other digits with an optional fraction and exponent. -/
def ofText? (text : String) : Option Binary64 :=
  match text.toList with
  | '-' :: cs => unsigned? true cs
  | cs => unsigned? false cs
where
  digits? (cs : List Char) : Option (List Char) :=
    if !cs.isEmpty && cs.all Char.isDigit then some cs else none
  exponent? : List Char → Option Int
    | '-' :: cs => (digits? cs).map fun ds => -(Nat.ofDigitChars 10 ds 0 : Int)
    | '+' :: cs => (digits? cs).map fun ds => (Nat.ofDigitChars 10 ds 0 : Int)
    | cs => (digits? cs).map fun ds => (Nat.ofDigitChars 10 ds 0 : Int)
  unsigned? (negative : Bool) (cs : List Char) : Option Binary64 := do
    if cs == ['i', 'n', 'f'] then return .infinite negative
    if cs == ['n', 'a', 'n'] then return .nan
    let (mantissa, rest) := cs.span (· != 'e')
    let (whole, fraction) := mantissa.span (· != '.')
    let whole ← digits? whole
    let fraction ← if fraction.isEmpty then some [] else digits? fraction.tail
    let shift ← if rest.isEmpty then some 0 else exponent? rest.tail
    let d := Decimal.ofDigits whole fraction
    return ofDecimal negative ⟨d.coefficient, d.exponent + shift⟩

end MarkupCascade.Binary64
