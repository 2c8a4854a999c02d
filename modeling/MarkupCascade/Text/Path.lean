/-!
Paths of files, written with slashes. A path means the same without its empty components and those
that are a single period.
-/

namespace MarkupCascade.Text.Path

/-- A component that only says where it stands. -/
def isIdle (part : List Char) : Bool := part == [] || part == ['.']

def components (path : String) : List (List Char) :=
  (path.toList.splitOn '/').filter (!isIdle ·)

/-- Whether a path can only be that of a directory. -/
def endsInDirectory (path : String) : Bool := (path.toList.splitOn '/').getLast?.any isIdle

/-- The shortest way to write a path. -/
def normalize (path : String) : String :=
  let joined := ['/'].intercalate (components path)
  if path.toList.head? == some '/' then String.ofList ('/' :: joined)
  else if joined.isEmpty then "."
  else String.ofList joined

/-- The last component. -/
def fileName (path : String) : String :=
  String.ofList ((components path).getLast?.getD [])

end MarkupCascade.Text.Path
