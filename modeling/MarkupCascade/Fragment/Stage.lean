import MarkupCascade.Component
import MarkupCascade.Text.Blank
import MarkupCascade.Token

/-!
The grammar of fragments as a machine over tokens. A fragment is a value, or a declaration: a class
name, followed by a block of attributes that may be left out unless it is required. In a block and
in a tuple a comma separates two entries and may follow the last. The machine moves on exactly
those tokens that some fragment continues with, so the first token it refuses is the first that
cannot be right.
-/

namespace MarkupCascade.Fragment

inductive Form where
  | value
  | declaration
deriving DecidableEq, Repr

abbrev Form.Result : Form → Type
  | .value => Value
  | .declaration => Declaration

/-- A block whose closing brace has not been read. The latest attribute comes first. -/
structure Block where
  className : String
  attributes : List Attribute := []

namespace Block

def add (b : Block) (a : Attribute) : Block := { b with attributes := a :: b.attributes }

def close (b : Block) : Declaration := ⟨b.className, b.attributes.reverse⟩

end Block

/-- What a value is read for. -/
inductive Slot : Form → Type where
  | whole : Slot .value
  | entry (block : Block) (key : String) (condition : Option String) (line : Nat) :
    Slot .declaration

/-- What may come next. The tuples around a value are listed from the inside out, each with its
latest item first. -/
inductive Stage : Form → Type where
  | start (blockRequired : Bool) : Stage .declaration
  | opening (blockRequired : Bool) (className : String) : Stage .declaration
  /-- A key or the end of the block. -/
  | key (block : Block) : Stage .declaration
  /-- A condition or a colon. -/
  | gate (block : Block) (key : String) (line : Nat) : Stage .declaration
  | colon (block : Block) (key : String) (condition : Option String) (line : Nat) :
    Stage .declaration
  /-- A value, or inside a tuple the end of it. -/
  | value {f : Form} (slot : Slot f) (tuples : List (List Value)) : Stage f
  /-- A comma or the end of a tuple. -/
  | item {f : Form} (slot : Slot f) (items : List Value) (tuples : List (List Value)) : Stage f
  /-- A comma or the end of a block. -/
  | entry (block : Block) : Stage .declaration
  | finished {f : Form} (result : f.Result) : Stage f

namespace Stage

variable {f : Form}

/-- Whether a value may come next. -/
def valueDue : Stage f → Bool
  | .value .. => true
  | _ => false

/-- The result, if the fragment may end here. -/
def result? : Stage f → Option f.Result
  | .opening false name => some { className := name }
  | .finished r => some r
  | _ => none

/-- Puts a value where it belongs. -/
def place (slot : Slot f) : List (List Value) → Value → Stage f
  | items :: tuples, v => .item slot (v :: items) tuples
  | [], v =>
    match slot with
    | .whole => .finished v
    | .entry b k condition line => .entry (b.add ⟨k, v, condition, line⟩)

end Stage

/-- The integer of a sign and digits. -/
def integerOf (negative : Bool) (digits : List Char) : Int :=
  let n := Nat.ofDigitChars 10 digits 0
  if negative then -n else n

/-- The value of a token that is a value by itself. -/
def valueOf? : Token → Option Value
  | .default => some .default
  | .string body => some (.string (String.ofList (Value.unescape body)))
  | .float negative whole fraction =>
    some (.float (.ofDecimal negative (.ofDigits whole fraction)))
  | .percentage negative digits => some (.percentage (integerOf negative digits))
  | .integer negative digits => some (.integer (integerOf negative digits))
  | _ => none

namespace Stage

variable {f : Form}

/-- Moves on by a token that stands on the given line, or refuses it. -/
def next? (s : Stage f) (t : Token) (line : Nat) : Option (Stage f) :=
  match s, t with
  | .start required, .name text => some (.opening required (String.ofList text))
  | .opening _ name, .openBrace => some (.key ⟨name, []⟩)
  | .key b, .name text => some (.gate b (String.ofList text) line)
  | .key b, .closeBrace => some (.finished b.close)
  | .gate b k l, .condition body => some (.colon b k (some (String.ofList (Text.strip body))) l)
  | .gate b k l, .colon => some (.value (.entry b k none l) [])
  | .colon b k condition l, .colon => some (.value (.entry b k condition l) [])
  | .value slot tuples, .openParen => some (.value slot ([] :: tuples))
  | .value slot (items :: tuples), .closeParen => some (place slot tuples (.tuple items.reverse))
  | .value slot tuples, t => (valueOf? t).map (place slot tuples)
  | .item slot items tuples, .comma => some (.value slot (items :: tuples))
  | .item slot items tuples, .closeParen => some (place slot tuples (.tuple items.reverse))
  | .entry b, .comma => some (.key b)
  | .entry b, .closeBrace => some (.finished b.close)
  | _, _ => none

end Stage

end MarkupCascade.Fragment
