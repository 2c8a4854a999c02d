import MarkupCascade.State

/-!
Conditions: clauses joined by `&&`, all of which have to hold. A clause is a key, a negated key, or
a key compared with a literal that reaches to the end of the clause. A blank condition holds. The
whole condition is read before any of it is evaluated, so whether it is well formed does not depend
on the state.
-/

namespace MarkupCascade

inductive Test where
  | truthy
  | falsy
  | equals (literal : List Char)
  | differs (literal : List Char)
deriving DecidableEq, Repr

structure Clause where
  key : String
  test : Test
deriving DecidableEq, Repr

/-- A clause whose key is none. -/
structure ConditionError where
  key : String
  clause : String
deriving DecidableEq, Repr

def ConditionError.message (e : ConditionError) : String :=
  s!"Invalid key {Text.quote e.key} in clause {Text.quote e.clause}"

namespace Clause

def isKeyStart (c : Char) : Bool := c.isAlpha || c == '_'

def isKeyChar (c : Char) : Bool := isKeyStart c || c.isDigit || c == '.' || c == '-'

/-- A letter or underscore, and then letters, digits, underscores, periods and hyphens. -/
def isKey : List Char → Bool
  | [] => false
  | c :: cs => isKeyStart c && cs.all isKeyChar

/-- The text before the first `!=` and the text after it. -/
def splitDiffers : List Char → Option (List Char × List Char)
  | [] => none
  | '!' :: '=' :: cs => some ([], cs)
  | c :: cs => (splitDiffers cs).map fun (left, right) => (c :: left, right)

/-- The text before the first `=` and the text after it. -/
def splitEquals : List Char → Option (List Char × List Char)
  | [] => none
  | '=' :: cs => some ([], cs)
  | c :: cs => (splitEquals cs).map fun (left, right) => (c :: left, right)

/-- Takes a stripped clause apart into its key and its test. -/
def parts (cs : List Char) : List Char × Test :=
  match splitDiffers cs with
  | some (left, right) => (Text.strip left, .differs (Text.strip right))
  | none =>
    match splitEquals cs with
    | some (left, right) => (Text.strip left, .equals (Text.strip right))
    | none =>
      match cs with
      | '!' :: rest => (Text.strip rest, .falsy)
      | _ => (cs, .truthy)

def parse (cs : List Char) : Except ConditionError Clause :=
  let stripped := Text.strip cs
  let (key, test) := parts stripped
  if isKey key then .ok ⟨String.ofList key, test⟩
  else .error ⟨String.ofList key, String.ofList stripped⟩

def holds (state : State) (c : Clause) : Bool :=
  let value := state.lookUp c.key
  match c.test with
  | .truthy => value.isTruthy
  | .falsy => !value.isTruthy
  | .equals literal => value.text == literal
  | .differs literal => value.text != literal

end Clause

namespace Condition

/-- The pieces of a text between one `&&` and the next. -/
def pieces : List Char → List (List Char)
  | [] => [[]]
  | '&' :: '&' :: cs => [] :: pieces cs
  | c :: cs =>
    match pieces cs with
    | piece :: others => (c :: piece) :: others
    | [] => [[c]]

/-- The clauses of a condition, or the first piece of it that is none. -/
def parse (expression : String) : Except ConditionError (List Clause) :=
  let cs := expression.toList
  if (Text.strip cs).isEmpty then .ok [] else (pieces cs).mapM Clause.parse

def evaluate (state : State) (expression : String) : Except ConditionError Bool :=
  (parse expression).map fun clauses => clauses.all (·.holds state)

end Condition

end MarkupCascade
