import MarkupCascade.Table
import MarkupCascade.Text.Blank
import MarkupCascade.Text.Quoted
import MarkupCascade.Value

/-!
The runtime state that conditions are about: scalars under keys. A key without an entry counts like
one that holds nothing.
-/

namespace MarkupCascade

inductive Scalar where
  | null
  | bool (b : Bool)
  | string (text : String)
  | integer (n : Int)
  | float (x : Binary64)
deriving DecidableEq, Repr

namespace Scalar

/-- What a condition compares a literal with. -/
def text : Scalar → List Char
  | .null => []
  | .bool true => ['t', 'r', 'u', 'e']
  | .bool false => ['f', 'a', 'l', 's', 'e']
  | .string s => s.toList
  | .integer n => Value.spellInt n
  | .float x => x.spell

/-- The texts that stand for falsehood, in lower case. No character beyond ASCII has a letter of
them as its lower case. -/
def falsehoods : List (List Char) :=
  [[], ['0'], ['f', 'a', 'l', 's', 'e'], ['n', 'o'], ['o', 'f', 'f']]

def isTruthy : Scalar → Bool
  | .null => false
  | .bool b => b
  | s => !falsehoods.contains ((Text.strip s.text).map Char.toLower)

end Scalar

abbrev State := Table Scalar

namespace State

/-- The value a condition sees under a key. -/
def lookUp (state : State) (key : String) : Scalar := (state.get? key).getD .null

/-- The keys a state has ever had written, without the values. -/
def summary (state : State) : String :=
  "RuntimeState(keys=[" ++ ", ".intercalate (state.keys.map Text.quote) ++ "])"

end State

end MarkupCascade
