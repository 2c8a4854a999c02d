import MarkupCascade.Fragment

/-!
The logical lines of a document. A logical line is one physical line, or several where an attribute
block stays open over their ends. Blank lines and lines that hold only a comment belong to none.
Whether a block is open is judged by the braces alone, those in strings and comments left aside; a
string is taken to end with its physical line.
-/

namespace MarkupCascade

structure LogicalLine where
  /-- The number of its first physical line. -/
  number : Nat
  /-- The spaces and tabs in front of it. -/
  indent : String
  text : String
deriving DecidableEq, Repr

namespace LogicalLine

/-- Physical lines end at a line feed, with or without a carriage return before it. -/
def physicalLines : List Char → List (List Char)
  | [] => [[]]
  | '\n' :: cs => [] :: physicalLines cs
  | '\r' :: '\n' :: cs => [] :: physicalLines cs
  | c :: cs =>
    match physicalLines cs with
    | line :: lines => (c :: line) :: lines
    | [] => [[c]]

/-- Blank, or a comment and nothing else. -/
def isIgnored (line : List Char) : Bool :=
  let body := Text.strip line
  body.isEmpty || ['/', '/'].isPrefixOf body

inductive Region where
  | code
  | string
  | escape
deriving DecidableEq, Repr

/-- The opening braces of a physical line, less the closing ones. -/
def braceBalance : Region → List Char → Int
  | _, [] => 0
  | .escape, _ :: cs => braceBalance .string cs
  | .string, c :: cs =>
    braceBalance (if c == '\\' then .escape else if c == '"' then .code else .string) cs
  | .code, c :: cs =>
    if c == '"' then braceBalance .string cs
    else if c == '/' && cs.head? == some '/' then 0
    else if c == '{' then braceBalance .code cs + 1
    else if c == '}' then braceBalance .code cs - 1
    else braceBalance .code cs

def isIndent (c : Char) : Bool := c == ' ' || c == '\t'

/-- A logical line whose last physical line has not been found. -/
structure Open where
  number : Nat
  indent : List Char
  text : List Char
  balance : Int

namespace Open

def start (number : Nat) (line : List Char) : Open :=
  let body := line.dropWhile isIndent
  ⟨number, line.takeWhile isIndent, body, braceBalance .code body⟩

def extend (o : Open) (line : List Char) : Open :=
  { o with text := o.text ++ '\n' :: line, balance := o.balance + braceBalance .code line }

def advance (pending : Option Open) (number : Nat) (line : List Char) : Open :=
  match pending with
  | some o => o.extend line
  | none => start number line

def close (o : Open) : LogicalLine := ⟨o.number, String.ofList o.indent, String.ofList o.text⟩

end Open

/-- The logical lines found, and the first line of a block that is never closed. -/
structure Split where
  lines : List LogicalLine
  unclosed : Option Nat
deriving DecidableEq, Repr

/-- Gathers physical lines, the first of which has the given number, into logical ones. A logical
line is complete at the first physical line where its braces balance. -/
def gather (number : Nat) (pending : Option Open) : List (List Char) → Split
  | [] => ⟨[], pending.map (·.number)⟩
  | line :: rest =>
    if pending.isNone && isIgnored line then gather (number + 1) none rest
    else
      let o := Open.advance pending number line
      if 0 < o.balance then gather (number + 1) (some o) rest
      else
        let split := gather (number + 1) none rest
        { split with lines := o.close :: split.lines }

def split (source : String) : Split := gather 1 none (physicalLines source.toList)

/-- The number of levels that a line is indented, four spaces each. -/
def depth (l : LogicalLine) : Except ParseError Nat :=
  let width := l.indent.length
  if l.indent.toList.contains '\t' || width % 4 != 0 then
    .error ⟨.indentation width, some l.number, none⟩
  else .ok (width / 4)

/-- The declaration on a line. It may not set a key twice without a condition. -/
def declaration (blockRequired : Bool) (l : LogicalLine) : Except ReadError Declaration := do
  let d ← Declaration.parse blockRequired l.text l.number l.indent.length
  match Attribute.firstRepeated? d.attributes with
  | some a => throw (.parse ⟨.repeatedKey a.key, some (a.lineOr l.number), none⟩)
  | none => return d

end LogicalLine

/-- The error of a block that begins on a line and has no end. -/
def ReadError.unclosed (number : Nat) : ReadError :=
  .parse ⟨.unclosedBlock, some number, none⟩

end MarkupCascade
