import MarkupCascade.Text.Printable

/-!
Quoted texts, as messages show a piece of markup: every character that would not be visible is
spelled by its code point, so a quoted text stays on one line and can be read back.
-/

namespace MarkupCascade.Text

/-- Hexadecimal digits in lower case, filled up with zeros to the width. -/
def hexadecimal (width n : Nat) : List Char :=
  let digits := Nat.toDigits 16 n
  List.replicate (width - digits.length) '0' ++ digits

/-- A single quote delimits, unless the text holds one and no double quote. -/
def delimiter (cs : List Char) : Char :=
  if cs.contains '\'' && !cs.contains '"' then '"' else '\''

/-- One character between two delimiters `d`. -/
def escape (d c : Char) : List Char :=
  if c == d || c == '\\' then ['\\', c]
  else if c == '\n' then ['\\', 'n']
  else if c == '\r' then ['\\', 'r']
  else if c == '\t' then ['\\', 't']
  else if isPrintable c then [c]
  else if c.toNat < 0x100 then '\\' :: 'x' :: hexadecimal 2 c.toNat
  else if c.toNat < 0x10000 then '\\' :: 'u' :: hexadecimal 4 c.toNat
  else '\\' :: 'U' :: hexadecimal 8 c.toNat

def quote (text : String) : String :=
  let cs := text.toList
  let d := delimiter cs
  String.ofList (d :: cs.flatMap (escape d) ++ [d])

end MarkupCascade.Text
