import MarkupCascade.Condition
import MarkupCascade.Stylesheet

/-!
The cascade. For a component the attributes of all rules of its class come first, in the order of
the stylesheet, and then its own; of several that set one key the last whose condition holds
decides. Conditions are put to an evaluator that may fail, keep a state or record what it is asked.
Every condition is put exactly once, in document order, whatever the answers are.
-/

namespace MarkupCascade

inductive Origin.Kind where
  | style
  | template
  /-- A kind that a caller adds. It is described like a template. -/
  | other (name : String)
deriving DecidableEq, Repr

def Origin.Kind.name : Origin.Kind → String
  | .style => "style"
  | .template => "template"
  | .other name => name

/-- Where a value was declared. -/
structure Origin where
  kind : Origin.Kind
  line : Int
  source : String := "template"
deriving DecidableEq, Repr

def Origin.text (o : Origin) : String :=
  match o.kind with
  | .style => s!"style rule at {o.source}:{o.line}"
  | .template | .other _ => s!"template line {o.line}"

/-- The value in force under a key. -/
structure Setting where
  value : Value
  origin : Origin
deriving Repr

/-- The settings of one component. -/
structure ResolvedAttributes where
  className : String
  line : Int
  settings : Table Setting
deriving Repr

/-- Equality of the settings, wherever they come from and in whatever order they were made. -/
def ResolvedAttributes.same (r s : ResolvedAttributes) : Bool :=
  r.className == s.className && r.line == s.line && r.settings.size == s.settings.size
    && r.settings.entries.all fun (key, x) => (s.settings.get? key).any fun y => x.value == y.value

inductive ResolvedComponent where
  | node (attributes : ResolvedAttributes) (children : List ResolvedComponent)

namespace ResolvedComponent

def attributes : ResolvedComponent → ResolvedAttributes
  | .node as _ => as

def children : ResolvedComponent → List ResolvedComponent
  | .node _ cs => cs

mutual

def same : ResolvedComponent → ResolvedComponent → Bool
  | .node as cs, .node bs ds => as.same bs && sameAll cs ds

def sameAll : List ResolvedComponent → List ResolvedComponent → Bool
  | [], [] => true
  | c :: cs, d :: ds => same c d && sameAll cs ds
  | _, _ => false

end

mutual

/-- The settings of a component and of all below it in document order. -/
def walk : ResolvedComponent → List ResolvedAttributes
  | .node as children => as :: walkAll children

def walkAll : List ResolvedComponent → List ResolvedAttributes
  | [] => []
  | c :: cs => walk c ++ walkAll cs

end

end ResolvedComponent

namespace Cascade

/-- An attribute that is up for a component. -/
structure Candidate where
  key : String
  condition : Option String
  setting : Setting
deriving Repr

def Candidate.of (a : Attribute) (origin : Origin) : Candidate :=
  ⟨a.key, a.condition, a.value, origin⟩

/-- The attributes of a rule, as candidates. -/
def ofRule (sheet : Stylesheet) (rule : StyleRule) : List Candidate :=
  rule.attributes.map fun a => .of a ⟨.style, a.lineOr rule.line, sheet.name⟩

/-- The attributes of a component itself, as candidates. -/
def ofComponent (line : Int) (attributes : List Attribute) : List Candidate :=
  attributes.map fun a => .of a ⟨.template, a.lineOr line, "template"⟩

/-- All attributes that are up for a component, the weakest first. -/
def candidates (sheet : Stylesheet) (className : String) (line : Int)
    (attributes : List Attribute) : List Candidate :=
  (sheet.matching className).flatMap (ofRule sheet) ++ ofComponent line attributes

variable {m : Type → Type} [Monad m]

/-- Keeps the candidates whose condition holds. -/
def applicable (ask : String → m Bool) : List Candidate → m (List Candidate)
  | [] => pure []
  | c :: cs => do
    let holds ← match c.condition with
      | none => pure true
      | some expression => ask expression
    let others ← applicable ask cs
    return if holds then c :: others else others

/-- Later candidates overwrite earlier ones. -/
def settle (cs : List Candidate) : Table Setting :=
  cs.foldl (fun t c => t.insert c.key c.setting) ∅

def resolveAttributes (ask : String → m Bool) (sheet : Stylesheet) (className : String)
    (line : Int) (attributes : List Attribute) : m ResolvedAttributes := do
  let winners ← applicable ask (candidates sheet className line attributes)
  return ⟨className, line, settle winners⟩

mutual

/-- Resolves a component and all below it. -/
def resolve (ask : String → m Bool) (sheet : Stylesheet) : Component → m ResolvedComponent
  | .node className line attributes children => do
    let resolved ← resolveAttributes ask sheet className line attributes
    let below ← resolveAll ask sheet children
    return .node resolved below

def resolveAll (ask : String → m Bool) (sheet : Stylesheet) :
    List Component → m (List ResolvedComponent)
  | [] => pure []
  | c :: cs => do
    let first ← resolve ask sheet c
    let others ← resolveAll ask sheet cs
    return first :: others

end

end Cascade

/-- Resolves a template under a state. -/
def Component.resolve (root : Component) (sheet : Stylesheet) (state : State) :
    Except ConditionError ResolvedComponent :=
  Cascade.resolve (Condition.evaluate state) sheet root

end MarkupCascade
