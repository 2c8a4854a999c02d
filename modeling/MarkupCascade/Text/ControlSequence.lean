/-!
Control sequences, by which a text would set the colours or move the cursor of a terminal. They are
left out of what is shown, so that output reads the same wherever it goes. A sequence opens with an
escape character and a bracket; parameters, intermediate characters and a final character follow,
each taken from a range of its own. Any other text stays as it is, an escape character that begins
no whole sequence included.
-/

namespace MarkupCascade.Text

/-- Digits, the separators between them and the marks of private sequences. -/
def isParameter (c : Char) : Bool := '0' ≤ c && c ≤ '?'

def isIntermediate (c : Char) : Bool := ' ' ≤ c && c ≤ '/'

def isFinal (c : Char) : Bool := '@' ≤ c && c ≤ '~'

/-- What follows the control sequence that a text begins with. -/
def afterControl? : List Char → Option (List Char)
  | '\x1b' :: '[' :: cs =>
    match (cs.dropWhile isParameter).dropWhile isIntermediate with
    | c :: rest => if isFinal c then some rest else none
    | [] => none
  | _ => none

theorem length_lt_of_afterControl? {cs rest : List Char} (h : afterControl? cs = some rest) :
    rest.length < cs.length := by
  fun_cases afterControl? cs with
  | case1 cs c rest' found final =>
    have shorter := ((List.dropWhile_sublist isIntermediate).trans
      (List.dropWhile_sublist isParameter (l := cs))).length_le
    rw [found] at shorter
    simp only [afterControl?, found, final, if_true, Option.some.injEq] at h
    subst h
    simp only [List.length_cons] at shorter ⊢
    omega
  | case2 cs c rest' found final =>
    rw [afterControl?, found] at h
    exact absurd h (by simp [final])
  | case3 cs ended =>
    rw [afterControl?, ended] at h
    cases h
  | case4 cs other =>
    rw [afterControl?] at h
    · cases h
    · exact other

/-- Sequences are found from left to right. What stands around one never joins to another. -/
def dropControls : List Char → List Char
  | [] => []
  | c :: cs =>
    match _ : afterControl? (c :: cs) with
    | some rest => dropControls rest
    | none => c :: dropControls cs
termination_by cs => cs.length
decreasing_by
  · exact length_lt_of_afterControl? ‹_›
  · simp

/-- A text without its control sequences. -/
def plain (text : String) : String := String.ofList (dropControls text.toList)

end MarkupCascade.Text
