import MarkupCascade.Condition
import MarkupCascade.Configuration
import MarkupCascade.Diagnostic
import MarkupCascade.Stylesheet

/-!
Validation of a template and a stylesheet. The built-in rules run in a fixed order, and rules given
by the caller after them. No built-in rule reports an error.
-/

namespace MarkupCascade.Validation

abbrev Rule := Component → Stylesheet → Configuration → List Diagnostic

/-- An attribute with the document and the line it is reported at. -/
structure Declared where
  declared : Attribute
  source : String
  line : Int

/-- All attributes, those of the stylesheet first. -/
def declarations (root : Component) (sheet : Stylesheet) : List Declared :=
  sheet.rules.flatMap (fun r => r.attributes.map fun a => ⟨a, sheet.name, a.lineOr r.line⟩)
    ++ root.walk.flatMap fun c => c.attributes.map fun a => ⟨a, "template", a.lineOr c.line⟩

/-- Reports the components of a class that is not known. -/
def knownClasses : Rule := fun root _ config =>
  if config.knownClasses.isEmpty then []
  else
    let unknown := root.walk.filter fun c => !config.knownClasses.contains c.className
    let known := ", ".intercalate (sortedDistinct config.knownClasses)
    unknown.map fun c => {
      rule := "check_known_classes"
      severity := .warning
      message := s!"Unknown component class '{c.className}'."
      line := some c.line
      fix := some s!"Use one of: {known}." }

/-- Reports the style rules that match no component. -/
def unusedStyleRules : Rule := fun root sheet _ =>
  let used := root.walk.map (·.className)
  (sheet.rules.filter fun r => !used.contains r.className).map fun r => {
    rule := "check_unused_style_rules"
    severity := .info
    message := s!"Style rule for '{r.className}' matches no component."
    line := some r.line
    source := sheet.name }

/-- Reports the percentages outside the configured range, those inside tuples included. -/
def percentageRange : Rule := fun root sheet config =>
  (declarations root sheet).flatMap fun d =>
    let outside := d.declared.value.percentages.filter fun n =>
      n < config.lowest || config.highest < n
    outside.map fun n => {
      rule := "check_percentage_range"
      severity := .warning
      message := s!"Percentage {n}% for '{d.declared.key}' is outside "
        ++ s!"{config.lowest}-{config.highest}%."
      line := some d.line
      source := d.source }

/-- What may follow the key of a clause: an operator and a literal free of operators, or nothing. -/
def isComparison : List Char → Bool
  | [] => true
  | '!' :: '=' :: literal | '=' :: literal =>
    literal.all fun c => c != '=' && c != '!' && c != '&'
  | _ => false

/-- A key, negated or not, that may be compared with a literal. White space may stand around each
part. -/
def isClause (cs : List Char) : Bool :=
  let key := match cs.dropWhile Text.isBlank with
    | '!' :: rest => rest.dropWhile Text.isBlank
    | rest => rest
  (key.head?.any Clause.isKeyStart)
    && isComparison ((key.dropWhile Clause.isKeyChar).dropWhile Text.isBlank)

/-- The first piece of a condition that is no clause. -/
def badClause? (condition : List Char) : Option (List Char) :=
  if condition.isEmpty then none
  else (Condition.pieces condition).find? fun piece => !isClause piece

/-- Reports the conditions that the evaluator of this library may not understand. -/
def conditionSyntax : Rule := fun root sheet _ =>
  (declarations root sheet).filterMap fun d =>
    let condition := Text.strip (d.declared.condition.getD "").toList
    (badClause? condition).map fun piece => {
      rule := "check_condition_syntax"
      severity := .warning
      message := "Invalid condition syntax: '" ++ String.ofList (Text.strip piece) ++ "' in '"
        ++ String.ofList condition ++ "'."
      line := some d.line
      source := d.source
      fix := some "Conditions use key, !key, key=value or key!=value separated by &&." }

def builtIn : List Rule := [knownClasses, unusedStyleRules, percentageRange, conditionSyntax]

/-- All diagnostics, in the order of the rules. -/
def validate (root : Component) (sheet : Stylesheet := {}) (config : Configuration := {})
    (extra : List Rule := []) : List Diagnostic :=
  (builtIn ++ extra).flatMap fun rule => rule root sheet config

/-- A document with errors. -/
structure Rejection where
  diagnostics : List Diagnostic
deriving DecidableEq, Repr

def Rejection.message (r : Rejection) : String :=
  let errors := r.diagnostics.filter (·.isError)
  s!"Validation failed with {errors.length} error(s): "
    ++ "; ".intercalate (errors.map (·.text))

/-- The diagnostics of a document without errors. -/
def require (root : Component) (sheet : Stylesheet := {}) (config : Configuration := {})
    (extra : List Rule := []) : Except Rejection (List Diagnostic) :=
  let found := validate root sheet config extra
  let errors := found.filter (·.isError)
  if errors.isEmpty then .ok found else .error ⟨errors⟩

end MarkupCascade.Validation
