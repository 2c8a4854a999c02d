import MarkupCascade.Value

/-!
Components, the nodes of a template, and the attributes they declare. Lines count from one; an
attribute of line zero has no line of its own and is reported at its owner's.
-/

namespace MarkupCascade

/-- A key with its value, in force only where its condition holds. -/
structure Attribute where
  key : String
  value : Value
  condition : Option String := none
  line : Int := 0
deriving Repr

/-- The line an attribute is reported at. -/
def Attribute.lineOr (a : Attribute) (owner : Int) : Int :=
  if a.line = 0 then owner else a.line

/-- Two declarations of one key are at odds only where neither has a condition. The result is the
later one of the first such pair. -/
def Attribute.firstRepeated? (attributes : List Attribute) : Option Attribute :=
  go [] attributes
where
  go (seen : List String) : List Attribute → Option Attribute
    | [] => none
    | a :: rest =>
      if a.condition.isSome then go seen rest
      else if seen.contains a.key then some a
      else go (a.key :: seen) rest

/-- What one line of a template or one rule of a stylesheet says. -/
structure Declaration where
  className : String
  attributes : List Attribute := []
deriving Repr

inductive Component where
  | node (className : String) (line : Int) (attributes : List Attribute)
      (children : List Component)

namespace Component

def className : Component → String
  | .node c _ _ _ => c

def line : Component → Int
  | .node _ l _ _ => l

def attributes : Component → List Attribute
  | .node _ _ as _ => as

def children : Component → List Component
  | .node _ _ _ cs => cs

/-- The value of the last attribute of the key that has no condition. -/
def get? (c : Component) (key : String) : Option Value :=
  (c.attributes.reverse.find? fun a => a.key == key && a.condition.isNone).map (·.value)

mutual

/-- A component and all below it in document order, each with its depth. -/
def outline (depth : Nat) : Component → List (Nat × Component)
  | .node c l as children => (depth, .node c l as children) :: outlineAll (depth + 1) children

def outlineAll (depth : Nat) : List Component → List (Nat × Component)
  | [] => []
  | c :: cs => outline depth c ++ outlineAll depth cs

end

/-- A component and all below it in document order. -/
def walk (c : Component) : List Component := (c.outline 0).map (·.2)

mutual

/-- The number of levels from a component down to its deepest descendant. -/
def depth : Component → Nat
  | .node _ _ _ children => depthBelow children + 1

def depthBelow : List Component → Nat
  | [] => 0
  | c :: cs => max (depth c) (depthBelow cs)

end

end Component

end MarkupCascade
