import MarkupCascade.Component

/-!
Stylesheets: rules in the order they are written, each for one component class.
-/

namespace MarkupCascade

structure StyleRule where
  className : String
  attributes : List Attribute := []
  line : Int := 0
deriving Repr

structure Stylesheet where
  rules : List StyleRule := []
  name : String := "<style>"
deriving Repr

namespace Stylesheet

def matching (sheet : Stylesheet) (className : String) : List StyleRule :=
  sheet.rules.filter (·.className == className)

end Stylesheet

end MarkupCascade
