import MarkupCascade.Text.Quoted

/-!
Why a document cannot be read. Every fault spoils the whole document, and names the line at which
it was found unless it concerns none.
-/

namespace MarkupCascade

namespace ParseError

/-- The rules a document can break. `document` stands for faults of no particular kind. -/
inductive Rule where
  | document | indentation | nesting | singleRoot | someRoot | distinctKeys | closedBlock | grammar
deriving DecidableEq, Repr

inductive Cause where
  /-- The indent is no whole number of levels. -/
  | indentation (width : Nat)
  /-- A component stands more than one level below the one before it. -/
  | tooDeep (className : String) (depth parentDepth : Nat)
  | beforeRoot (className : String)
  | secondRoot (className rootName : String) (rootLine : Int)
  | noComponents
  | repeatedKey (key : String)
  | unclosedBlock
  | unexpectedToken (text : String)
  | unexpectedCharacter (c : Char)
  | unexpectedEnd
  /-- An integer or percentage outside the 64-bit range. -/
  | outOfRange (literal : String)
  /-- A fault that a caller reports in its own words. -/
  | stated (rule : Rule) (message : String)
deriving DecidableEq, Repr

def Cause.rule : Cause → Rule
  | .indentation _ => .indentation
  | .tooDeep .. | .beforeRoot _ => .nesting
  | .secondRoot .. => .singleRoot
  | .noComponents => .someRoot
  | .repeatedKey _ => .distinctKeys
  | .unclosedBlock => .closedBlock
  | .unexpectedToken _ | .unexpectedCharacter _ | .unexpectedEnd | .outOfRange _ => .grammar
  | .stated rule _ => rule

/-- Messages show no more than the first forty characters of a token. -/
def Cause.message : Cause → String
  | .indentation width => s!"indentation of {width} column(s) is not a multiple of 4 spaces"
  | .tooDeep className depth parentDepth =>
    s!"component {Text.quote className} is indented {depth} level(s) but its parent is at level "
      ++ s!"{parentDepth}"
  | .beforeRoot className => s!"component {Text.quote className} is indented before any root"
  | .secondRoot className rootName rootLine =>
    s!"second root component {Text.quote className}; the root {Text.quote rootName} is declared "
      ++ s!"on line {rootLine}"
  | .noComponents => "document contains no components"
  | .repeatedKey key => s!"duplicate attribute key {Text.quote key}"
  | .unclosedBlock => "attribute block is never closed"
  | .unexpectedToken text => "unexpected " ++ String.ofList (text.toList.take 40)
  | .unexpectedCharacter c => s!"unexpected character {Text.quote c.toString}"
  | .unexpectedEnd => "unexpected end of input"
  | .outOfRange literal => s!"integer literal {literal} does not fit in 64 bits"
  | .stated _ message => message

end ParseError

structure ParseError where
  cause : ParseError.Cause
  line : Option Int := none
  column : Option Int := none
deriving DecidableEq, Repr

def ParseError.message (e : ParseError) : String :=
  match e.line with
  | none => e.cause.message
  | some line => s!"line {line}: " ++ e.cause.message

/-- An integer or percentage with more digits than are ever converted. -/
structure OversizedLiteral where
  isPercentage : Bool
  digits : Nat
deriving DecidableEq, Repr

namespace OversizedLiteral

/-- The most digits an integer may have, leading zeros included. -/
def maxDigits : Nat := 4300

def message (e : OversizedLiteral) : String :=
  let kind := if e.isPercentage then "percentage" else "integer"
  s!"Error trying to process rule \"{kind}\":\n\n"
    ++ s!"Exceeds the limit ({maxDigits} digits) for integer string conversion: "
    ++ s!"value has {e.digits} digits; "
    ++ "use sys.set_int_max_str_digits() to increase the limit"

end OversizedLiteral

/-- How reading a document or a fragment of one fails: with a fault in the markup, or because a
number in it is too long to be converted at all. -/
inductive ReadError where
  | parse (error : ParseError)
  | oversized (literal : OversizedLiteral)
deriving DecidableEq, Repr

def ReadError.message : ReadError → String
  | .parse e => e.message
  | .oversized e => e.message

end MarkupCascade
