import MarkupCascade.Text.Blank

/-!
What validation is told from outside: the component classes that exist, and the range percentages
are expected in.
-/

namespace MarkupCascade

structure Configuration where
  encoding : String := "utf-8"
  /-- If empty, every class is known. -/
  knownClasses : List String := []
  lowest : Int := 0
  highest : Int := 100
deriving DecidableEq, Repr

/-- Texts in ascending order of their code points, each once. -/
def sortedDistinct (texts : List String) : List String :=
  texts.eraseDups.mergeSort fun s t => s ≤ t

namespace Configuration

/-- The names in a list separated by commas. -/
def classList (text : String) : List String :=
  let pieces := (text.toList.splitOn ',').map Text.strip
  (pieces.filter fun piece => !piece.isEmpty).map String.ofList

/-- The configuration that environment variables describe. -/
def ofEnvironment (environment : String → Option String) : Configuration where
  encoding := (environment "TRELLIS_ENCODING").getD "utf-8"
  knownClasses := classList ((environment "TRELLIS_CLASSES").getD "")

end Configuration

end MarkupCascade
