import MarkupCascade.LogicalLine
import MarkupCascade.Stylesheet

/-!
Templates: one component to a logical line, below the nearest line before it that is indented one
level less. A template has a single root, and no line is more than one level deeper than the line
before it.
-/

namespace MarkupCascade

namespace Template

/-- A component apart from what is below it. -/
structure Entry where
  depth : Nat
  line : Nat
  declaration : Declaration

/-- What decides where the next entry may stand. -/
structure Nesting where
  rootName : String
  rootLine : Nat
  /-- The depth of the entry before. -/
  depth : Nat
deriving DecidableEq, Repr

/-- Finds a place for an entry after those before it. -/
def place (before : Option Nesting) (e : Entry) : Except ParseError Nesting :=
  let name := e.declaration.className
  match before with
  | none =>
    if e.depth = 0 then .ok ⟨name, e.line, 0⟩
    else .error ⟨.beforeRoot name, some e.line, none⟩
  | some p =>
    if e.depth = 0 then .error ⟨.secondRoot name p.rootName p.rootLine, some e.line, none⟩
    else if p.depth + 1 < e.depth then
      .error ⟨.tooDeep name e.depth p.depth, some e.line, none⟩
    else .ok { p with depth := e.depth }

/-- Reads lines until the first that is at fault. -/
def entries (before : Option Nesting) : List LogicalLine → Except ReadError (List Entry)
  | [] => .ok []
  | l :: rest => do
    let depth ← l.depth.mapError .parse
    let declaration ← l.declaration false
    let e : Entry := ⟨depth, l.number, declaration⟩
    let here ← (place before e).mapError .parse
    let others ← entries (some here) rest
    return e :: others

/-- Puts an entry in front of a forest, whose trees come with the depth of their roots. The trees
that follow at a greater depth become its children. -/
def graft (e : Entry) (forest : List (Nat × Component)) : List (Nat × Component) :=
  let deeper (t : Nat × Component) : Bool := e.depth < t.1
  let children := (forest.takeWhile deeper).map (·.2)
  (e.depth, .node e.declaration.className e.line e.declaration.attributes children)
    :: forest.dropWhile deeper

/-- The tree of some entries in document order. -/
def root? (es : List Entry) : Option Component := ((es.foldr graft []).head?).map (·.2)

end Template

/-- Reads a template. -/
def Component.parse (source : String) : Except ReadError Component := do
  let split := LogicalLine.split source
  let es ← Template.entries none split.lines
  match split.unclosed, Template.root? es with
  | some number, _ => throw (.unclosed number)
  | none, some root => return root
  | none, none => throw (.parse ⟨.noComponents, none, none⟩)

namespace Stylesheet

def rule (l : LogicalLine) : Except ReadError StyleRule := do
  let d ← l.declaration true
  return ⟨d.className, d.attributes, l.number⟩

/-- Reads a stylesheet. Its rules may be indented in any way. -/
def parse (source : String) (name : String := "<style>") : Except ReadError Stylesheet := do
  let split := LogicalLine.split source
  let rules ← split.lines.mapM rule
  match split.unclosed with
  | some number => throw (.unclosed number)
  | none => return ⟨rules, name⟩

end Stylesheet

end MarkupCascade
