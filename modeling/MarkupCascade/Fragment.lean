import MarkupCascade.Fragment.Stage
import MarkupCascade.ParseError
import MarkupCascade.Position

/-!
Fragments read from text. A text that leaves the grammar is refused at the first token or character
that cannot be right. A number that cannot be held is reported only once the whole text is known to
fit the grammar, and of several numbers the first.
-/

namespace MarkupCascade.Fragment

/-- A token and the place of its first character. -/
structure Lexeme where
  token : Token
  start : Position
deriving DecidableEq, Repr

/-- Why a text is no fragment. -/
inductive Fault where
  | unexpectedToken (lexeme : Lexeme)
  | unexpectedCharacter (c : Char) (start : Position)
  /-- The text ends too early. The place is that of its last token. -/
  | unexpectedEnd (last : Position)
  | outOfRange (literal : List Char) (start : Position)
  | oversized (literal : OversizedLiteral)
deriving DecidableEq, Repr

/-- The tokens that a text begins with, as far as the grammar allows, and what comes of them. -/
structure Reading (f : Form) where
  lexemes : List Lexeme
  outcome : Except Fault f.Result

variable {f : Form}

/-- Reads on from a stage. `here` is the place of the text, `last` that of the token before it. -/
def read (s : Stage f) (cs : List Char) (here last : Position) : Reading f :=
  match _ : Token.splitGap false cs with
  | (_, []) =>
    match s.result? with
    | some result => ⟨[], .ok result⟩
    | none => ⟨[], .error (.unexpectedEnd last)⟩
  | (gap, c :: rest) =>
    let start := here.after gap
    match _ : Token.scan? s.valueDue (c :: rest) with
    | none => ⟨[], .error (.unexpectedCharacter c start)⟩
    | some (t, rest') =>
      match s.next? t start.line with
      | none => ⟨[], .error (.unexpectedToken ⟨t, start⟩)⟩
      | some s' =>
        let reading := read s' rest' (start.after t.spell) start
        { reading with lexemes := ⟨t, start⟩ :: reading.lexemes }
termination_by cs.length
decreasing_by
  have whole := Token.splitGap_append false cs
  have shorter := Token.length_lt_of_scan? ‹Token.scan? _ _ = some _›
  simp only [‹Token.splitGap false cs = _›] at whole
  simp only [← whole, List.length_append]
  omega

/-- Integers have 64 bits. -/
def minInteger : Int := -9223372036854775808

def maxInteger : Int := 9223372036854775807

def numberFault? (isPercentage negative : Bool) (digits : List Char) (start : Position) :
    Option Fault :=
  let n := integerOf negative digits
  if OversizedLiteral.maxDigits < digits.length then
    some (.oversized ⟨isPercentage, digits.length⟩)
  else if n < minInteger || maxInteger < n then
    some (.outOfRange (Token.sign negative ++ digits) start)
  else none

/-- What is wrong with a number that the grammar accepts. -/
def Lexeme.fault? (l : Lexeme) : Option Fault :=
  match l.token with
  | .integer negative digits => numberFault? false negative digits l.start
  | .percentage negative digits => numberFault? true negative digits l.start
  | _ => none

def Reading.result (r : Reading f) : Except Fault f.Result :=
  match r.outcome with
  | .error fault => .error fault
  | .ok result =>
    match r.lexemes.findSome? Lexeme.fault? with
    | some fault => .error fault
    | none => .ok result

def parse (s : Stage f) (cs : List Char) : Except Fault f.Result :=
  (read s cs {} {}).result

/-- The error of a fault in a fragment that begins on the given line of a document, behind an
indent of some columns. The column of a number that is out of range does not count the indent. -/
def Fault.toReadError (line indent : Int) : Fault → ReadError
  | .unexpectedToken l => located (.unexpectedToken (String.ofList l.token.spell)) l.start
  | .unexpectedCharacter c start => located (.unexpectedCharacter c) start
  | .unexpectedEnd last => located .unexpectedEnd last
  | .outOfRange literal start =>
    .parse ⟨.outOfRange (String.ofList literal), some (line + start.line - 1), some start.column⟩
  | .oversized literal => .oversized literal
where
  located (cause : ParseError.Cause) (p : Position) : ReadError :=
    let column : Int := p.column + (if p.line = 1 then indent else 0)
    .parse ⟨cause, some (line + p.line - 1), some column⟩

end Fragment

/-- Reads a literal. -/
def Value.parse (text : String) (line : Int := 1) (indent : Int := 0) : Except ReadError Value :=
  (Fragment.parse (.value .whole []) text.toList).mapError (·.toReadError line indent)

/-- Reads a declaration. Attributes get the line of the document that their key stands on. -/
def Declaration.parse (blockRequired : Bool) (text : String) (line : Int := 1)
    (indent : Int := 0) : Except ReadError Declaration := do
  let d ← (Fragment.parse (.start blockRequired) text.toList).mapError
    (·.toReadError line indent)
  let attributes := d.attributes.map fun a => { a with line := line + a.line - 1 }
  return { d with attributes }

end MarkupCascade
