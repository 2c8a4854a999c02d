/-!
Diagnostics: findings about a document that can be read but is probably not what was meant.
-/

namespace MarkupCascade

inductive Severity where
  | error
  | warning
  | info
deriving DecidableEq, Repr

def Severity.name : Severity → String
  | .error => "ERROR"
  | .warning => "WARNING"
  | .info => "INFO"

structure Diagnostic where
  rule : String
  severity : Severity
  message : String
  line : Option Int := none
  source : String := "template"
  fix : Option String := none
deriving DecidableEq, Repr

namespace Diagnostic

def text (d : Diagnostic) : String :=
  let place := match d.line with
    | none => ""
    | some line => s!" [{d.source}:{line}]"
  s!"{d.severity.name}{place}: {d.message}"

def isError (d : Diagnostic) : Bool := d.severity == .error

def isWarning (d : Diagnostic) : Bool := d.severity == .warning

end Diagnostic

end MarkupCascade
