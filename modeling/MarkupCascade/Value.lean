import MarkupCascade.Binary64.Text
import MarkupCascade.Token

/-!
The literals of markup, what they are called in messages, when two of them are equal, and how they
are written. A written value reads back to an equal one unless it holds a number whose text needs
an exponent or is infinite.
-/

namespace MarkupCascade

inductive Value where
  | default
  | string (text : String)
  | integer (n : Int)
  | float (x : Binary64)
  | percentage (coefficient : Int)
  | tuple (items : List Value)
deriving Repr

namespace Value

inductive Kind where
  | default | string | integer | float | percentage | tuple
deriving DecidableEq, Repr

def Kind.name : Kind → String
  | .default => "default"
  | .string => "string"
  | .integer => "integer"
  | .float => "float"
  | .percentage => "percentage"
  | .tuple => "tuple"

def kind : Value → Kind
  | .default => .default
  | .string _ => .string
  | .integer _ => .integer
  | .float _ => .float
  | .percentage _ => .percentage
  | .tuple _ => .tuple

def isDefault (v : Value) : Bool := v.kind == .default

mutual

/-- Equality never crosses kinds: `5`, `5.0` and `5%` all differ. -/
def same : Value → Value → Bool
  | .default, .default => true
  | .string s, .string t => s == t
  | .integer m, .integer n => m == n
  | .float x, .float y => x == y
  | .percentage m, .percentage n => m == n
  | .tuple vs, .tuple ws => sameAll vs ws
  | _, _ => false

def sameAll : List Value → List Value → Bool
  | [], [] => true
  | v :: vs, w :: ws => same v w && sameAll vs ws
  | _, _ => false

end

instance : BEq Value := ⟨same⟩

/-- One character inside a string literal. Only the quote, the backslash and the line feed have to
be escaped. -/
def escape (c : Char) : List Char :=
  if c == '\\' then ['\\', '\\']
  else if c == '"' then ['\\', '"']
  else if c == '\n' then ['\\', 'n']
  else [c]

/-- Undoes `escape`, and reads the escapes of tab and carriage return. A backslash before any
other character stands for that character. -/
def unescape : List Char → List Char
  | '\\' :: c :: cs =>
    (if c == 'n' then '\n' else if c == 't' then '\t' else if c == 'r' then '\r' else c)
      :: unescape cs
  | c :: cs => c :: unescape cs
  | [] => []

def spellInt : Int → List Char
  | .ofNat n => Nat.toDigits 10 n
  | .negSucc n => '-' :: Nat.toDigits 10 (n + 1)

mutual

def spell : Value → List Char
  | .default => Token.defaultWord
  | .string text => '"' :: (text.toList.flatMap escape ++ ['"'])
  | .integer n => spellInt n
  | .float x => x.spell
  | .percentage n => spellInt n ++ ['%']
  | .tuple items => '(' :: (spellItems items ++ [')'])

/-- Items one after the other, a comma and a space between two of them. -/
def spellItems : List Value → List Char
  | [] => []
  | [v] => spell v
  | v :: vs => spell v ++ ',' :: ' ' :: spellItems vs

end

def text (v : Value) : String := String.ofList v.spell

instance : ToString Value := ⟨text⟩

mutual

/-- The coefficients of the percentages in a value, from left to right. -/
def percentages : Value → List Int
  | .percentage n => [n]
  | .tuple items => percentagesOf items
  | _ => []

def percentagesOf : List Value → List Int
  | [] => []
  | v :: vs => percentages v ++ percentagesOf vs

end

theorem unescape_cons {c : Char} (h : c ≠ '\\') (cs : List Char) :
    unescape (c :: cs) = c :: unescape cs := by
  simp [unescape, h]

@[simp] theorem unescape_flatMap_escape (cs : List Char) :
    unescape (cs.flatMap escape) = cs := by
  induction cs with
  | nil => rfl
  | cons c cs ih =>
    by_cases backslash : c = '\\'
    · subst c; simp [escape, unescape, ih]
    by_cases quote : c = '"'
    · subst c; simp [escape, unescape, ih]
    by_cases lineFeed : c = '\n'
    · subst c; simp [escape, unescape, ih]
    simp [escape, backslash, quote, lineFeed, unescape_cons, ih]

end Value

end MarkupCascade
