/-!
Files as text: the encodings a document may be stored in, and line ends. A file that is not valid
in its encoding has no text at all.
-/

namespace MarkupCascade.Text

inductive Encoding where
  | utf8
  /-- UTF-8 behind a byte order mark, which may be missing. -/
  | utf8Marked
  | latin1
  | ascii
deriving DecidableEq, Repr

namespace Encoding

/-- Names are compared in lower case, a hyphen for every space and underscore. -/
def ofName? (name : String) : Option Encoding :=
  let normal := name.toList.map fun c => if c == '_' || c == ' ' then '-' else c.toLower
  match String.ofList normal with
  | "utf-8" | "utf8" | "u8" | "utf" | "cp65001" => some .utf8
  | "utf-8-sig" => some .utf8Marked
  | "latin-1" | "latin1" | "latin" | "l1" | "iso-8859-1" | "iso8859-1" | "iso8859" | "8859"
  | "cp819" => some .latin1
  | "ascii" | "us-ascii" | "646" => some .ascii
  | _ => none

def decodeUtf8 (bytes : List UInt8) : Option (List Char) :=
  (String.fromUTF8? ⟨bytes.toArray⟩).map String.toList

def decode (bytes : List UInt8) : Encoding → Option (List Char)
  | .utf8 => decodeUtf8 bytes
  | .utf8Marked =>
    match bytes with
    | 0xef :: 0xbb :: 0xbf :: rest => decodeUtf8 rest
    | _ => decodeUtf8 bytes
  | .latin1 => some (bytes.map fun b => Char.ofNat b.toNat)
  | .ascii => bytes.mapM fun b => if b < 0x80 then some (Char.ofNat b.toNat) else none

end Encoding

/-- Makes every line end a line feed: one after a carriage return, and a carriage return alone. -/
def unifyLineEnds : List Char → List Char
  | [] => []
  | '\r' :: '\n' :: cs => '\n' :: unifyLineEnds cs
  | '\r' :: cs => '\n' :: unifyLineEnds cs
  | c :: cs => c :: unifyLineEnds cs

inductive FileError where
  | unknownEncoding (name : String)
  | undecodable
deriving DecidableEq, Repr

def FileError.message : FileError → String
  | .unknownEncoding name => s!"unknown encoding: {name}"
  | .undecodable => "the file is not valid in its encoding"

/-- The text of a file. -/
def ofFile (encoding : String) (bytes : List UInt8) : Except FileError String :=
  match Encoding.ofName? encoding with
  | none => .error (.unknownEncoding encoding)
  | some e =>
    match e.decode bytes with
    | none => .error .undecodable
    | some cs => .ok (String.ofList (unifyLineEnds cs))

end MarkupCascade.Text
