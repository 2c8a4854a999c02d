import MarkupCascade.Value

/-!
Conversions of values into what the readers of attributes work with. Each accepts the kinds it names
and no others.
-/

namespace MarkupCascade

inductive ConversionError where
  /-- The value is of none of the expected kinds. -/
  | kind (expected : List Value.Kind) (actual : Value.Kind)
  | colorSize (size : Nat)
  | colorChannel (channel : Int)
  | vectorSize (size : Nat)
deriving DecidableEq, Repr

def ConversionError.message : ConversionError → String
  | .kind expected actual =>
    "expected " ++ " or ".intercalate (expected.map (·.name)) ++ ", got " ++ actual.name
  | .colorSize size => s!"expected a color of 3 or 4 components, got {size}"
  | .colorChannel channel => s!"color component {channel} is outside 0-255"
  | .vectorSize size => s!"expected 2 components, got {size}"

/-- Red, green, blue and opacity, each from zero to one. -/
structure Color where
  red : Binary64
  green : Binary64
  blue : Binary64
  alpha : Binary64
deriving DecidableEq, Repr

namespace Value

def toString? : Value → Except ConversionError String
  | .string text => .ok text
  | v => .error (.kind [.string] v.kind)

def toInteger? : Value → Except ConversionError Int
  | .integer n => .ok n
  | v => .error (.kind [.integer] v.kind)

def toFloat? : Value → Except ConversionError Binary64
  | .float x => .ok x
  | v => .error (.kind [.float] v.kind)

/-- An integer or a floating-point number, as the latter. -/
def toNumber? : Value → Except ConversionError Binary64
  | .integer n => .ok (.ofInt n)
  | .float x => .ok x
  | v => .error (.kind [.integer, .float] v.kind)

/-- The coefficient of a percentage, as it is written. -/
def toPercentage? : Value → Except ConversionError Int
  | .percentage n => .ok n
  | v => .error (.kind [.percentage] v.kind)

/-- A percentage as a part of one. -/
def toFraction? (v : Value) : Except ConversionError Binary64 :=
  v.toPercentage?.map fun n => (Binary64.ofInt n).divNat 100

def toTuple? : Value → Except ConversionError (List Value)
  | .tuple items => .ok items
  | v => .error (.kind [.tuple] v.kind)

/-- A colour channel, given as an integer from 0 to 255. -/
def toChannel? (v : Value) : Except ConversionError Binary64 := do
  let n ← v.toInteger?
  if 0 ≤ n && n ≤ 255 then return (Binary64.ofInt n).divNat 255
  else throw (.colorChannel n)

/-- A tuple of three or four channels. A colour without a fourth is opaque. -/
def toColor? (v : Value) : Except ConversionError Color := do
  match ← v.toTuple? with
  | [r, g, b] => return ⟨← r.toChannel?, ← g.toChannel?, ← b.toChannel?, .ofInt 1⟩
  | [r, g, b, a] =>
    return ⟨← r.toChannel?, ← g.toChannel?, ← b.toChannel?, ← a.toChannel?⟩
  | items => throw (.colorSize items.length)

/-- A tuple of two numbers. -/
def toVector2? (v : Value) : Except ConversionError (Binary64 × Binary64) := do
  match ← v.toTuple? with
  | [x, y] => return (← x.toNumber?, ← y.toNumber?)
  | items => throw (.vectorSize items.length)

end Value

end MarkupCascade
