import MarkupCascade.Cascade

/-!
Registries of component classes. A class has the factory that was registered for it last.
-/

namespace MarkupCascade

structure UnknownClassError where
  className : String
  line : Option Int := none
deriving DecidableEq, Repr

def UnknownClassError.message (e : UnknownClassError) : String :=
  let place := match e.line with
    | none => ""
    | some line => s!" (line {line})"
  s!"unknown component class {Text.quote e.className}" ++ place

/-- What each class is built with. -/
abbrev Registry (α : Type) := Table (ResolvedAttributes → α)

namespace Registry

variable {α : Type}

def register (r : Registry α) (className : String) (factory : ResolvedAttributes → α) :
    Registry α :=
  r.insert className factory

def create (r : Registry α) (attributes : ResolvedAttributes) : Except UnknownClassError α :=
  match r.get? attributes.className with
  | none => .error ⟨attributes.className, some attributes.line⟩
  | some factory => .ok (factory attributes)

end Registry

end MarkupCascade
