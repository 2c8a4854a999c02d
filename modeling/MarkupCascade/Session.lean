import MarkupCascade.Registry
import MarkupCascade.Template
import MarkupCascade.Validation

/-!
Sessions: a state, a registry of classes, and the template and stylesheet in use, over a sequence
of steps. A step that fails changes nothing.
-/

namespace MarkupCascade

structure Session (α : Type) where
  state : State := ∅
  template : Option Component := none
  stylesheet : Stylesheet := {}
  registry : Registry α := ∅

namespace Session

variable {α : Type}

inductive Step (α : Type) where
  | template (source : String)
  | stylesheet (source name : String)
  | set (key : String) (value : Scalar)
  | update (entries : List (String × Scalar))
  | get (key : String) (fallback : Scalar)
  | contains (key : String)
  | lookUp (key : String)
  | summary
  | evaluate (expression : String)
  | resolve
  /-- Resolves twice and compares. -/
  | resolveTwice
  | validate (config : Configuration)
  | register (className : String) (factory : ResolvedAttributes → α)
  | classNames
  | isRegistered (className : String)
  | create

inductive Failure where
  | read (error : ReadError)
  | condition (error : ConditionError)
  | unknownClass (error : UnknownClassError)
  | noTemplate
deriving DecidableEq, Repr

inductive Answer (α : Type) where
  | done
  | scalar (value : Scalar)
  | flag (value : Bool)
  | text (value : String)
  | names (values : List String)
  | resolved (root : ResolvedComponent)
  | diagnostics (values : List Diagnostic)
  /-- What was built for each component, or why nothing was. -/
  | created (values : List (Except Failure α))

/-- Builds what is registered for the class of a component. -/
def build (s : Session α) (c : Component) : Except Failure α := do
  let resolved ← (Cascade.resolveAttributes (Condition.evaluate s.state) s.stylesheet
    c.className c.line c.attributes).mapError .condition
  (s.registry.create resolved).mapError .unknownClass

def current (s : Session α) : Except Failure Component :=
  match s.template with
  | some root => .ok root
  | none => .error .noTemplate

def resolved (s : Session α) : Except Failure ResolvedComponent := do
  let root ← s.current
  (root.resolve s.stylesheet s.state).mapError .condition

def step (s : Session α) : Step α → Except Failure (Answer α × Session α)
  | .template source => do
    let root ← (Component.parse source).mapError .read
    return (.names (root.walk.map (·.className)), { s with template := some root })
  | .stylesheet source name => do
    let sheet ← (Stylesheet.parse source name).mapError .read
    return (.names (sheet.rules.map (·.className)), { s with stylesheet := sheet })
  | .set key value => return (.done, { s with state := s.state.insert key value })
  | .update entries => return (.done, { s with state := s.state.insertAll entries })
  | .get key fallback => return (.scalar ((s.state.get? key).getD fallback), s)
  | .contains key => return (.flag (s.state.contains key), s)
  | .lookUp key => return (.scalar (s.state.lookUp key), s)
  | .summary => return (.text s.state.summary, s)
  | .evaluate expression => do
    let holds ← (Condition.evaluate s.state expression).mapError .condition
    return (.flag holds, s)
  | .resolve => do
    let resolved ← s.resolved
    return (.resolved resolved, s)
  | .resolveTwice => do
    let first ← s.resolved
    let second ← s.resolved
    return (.flag (first.same second), s)
  | .validate config => do
    let root ← s.current
    return (.diagnostics (Validation.validate root s.stylesheet config), s)
  | .register className factory =>
    return (.done, { s with registry := s.registry.register className factory })
  | .classNames => return (.names (sortedDistinct s.registry.keys), s)
  | .isRegistered className => return (.flag (s.registry.contains className), s)
  | .create => do
    let root ← s.current
    return (.created (root.walk.map s.build), s)

/-- The answers to a sequence of steps. -/
def run (s : Session α) : List (Step α) → List (Except Failure (Answer α))
  | [] => []
  | step :: rest =>
    match s.step step with
    | .error e => .error e :: run s rest
    | .ok (answer, next) => .ok answer :: run next rest

end Session

end MarkupCascade
