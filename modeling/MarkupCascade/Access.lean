import MarkupCascade.Cascade

/-!
Typed reads of resolved attributes. A read converts the value in force; where the conversion fails,
the error names the component, the key and the declaration the value came from.
-/

namespace MarkupCascade

/-- A value that could not be converted, and what its conversion reported. -/
structure AttributeError (ε : Type) where
  className : String
  line : Int
  key : String
  inner : ε
  origin : Option Origin
deriving DecidableEq, Repr

def AttributeError.message {ε : Type} (describe : ε → String) (e : AttributeError ε) : String :=
  let place := s!"{e.className} (line {e.line}), field {Text.quote e.key}: {describe e.inner}"
  match e.origin with
  | none => place
  | some o => place ++ s!" (value from {o.text})"

namespace ResolvedAttributes

variable {ε α : Type} {m : Type → Type} [Monad m]

/-- Converts a setting. The conversion may have effects of its own. -/
def convert (r : ResolvedAttributes) (key : String) (s : Setting)
    (conversion : Value → m (Except ε α)) : m (Except (AttributeError ε) α) := do
  let converted ← conversion s.value
  return converted.mapError fun e => ⟨r.className, r.line, key, e, some s.origin⟩

/-- The value under a key, converted, or a fallback where none is set. -/
def read (r : ResolvedAttributes) (key : String) (conversion : Value → m (Except ε α))
    (fallback : α) : m (Except (AttributeError ε) α) :=
  match r.settings.get? key with
  | none => pure (.ok fallback)
  | some s => r.convert key s conversion

/-- The value under a key, converted, unless none is set or it is `default`. -/
def read? (r : ResolvedAttributes) (key : String) (conversion : Value → m (Except ε α)) :
    m (Except (AttributeError ε) (Option α)) :=
  match r.settings.get? key with
  | none => pure (.ok none)
  | some s =>
    if s.value.isDefault then pure (.ok none)
    else return (← r.convert key s conversion).map some

end ResolvedAttributes

end MarkupCascade
