/-!
White space, and the removal of it from both ends of a text. The class is wider than ASCII: it
holds the separators of every script and the four information separators U+001C to U+001F.
-/

namespace MarkupCascade.Text

/-- White space of any script. -/
def isBlank (c : Char) : Bool :=
  let n := c.toNat
  (9 ≤ n && n ≤ 13) || (0x1c ≤ n && n ≤ 0x20) || n == 0x85 || n == 0xa0 || n == 0x1680
    || (0x2000 ≤ n && n ≤ 0x200a) || n == 0x2028 || n == 0x2029 || n == 0x202f || n == 0x205f
    || n == 0x3000

/-- Drops the white space at the end. -/
def trimEnd (cs : List Char) : List Char :=
  (cs.reverse.dropWhile isBlank).reverse

/-- Drops the white space at both ends. -/
def strip (cs : List Char) : List Char :=
  trimEnd (cs.dropWhile isBlank)

theorem trimEnd_eq_nil_iff {cs : List Char} : trimEnd cs = [] ↔ ∀ c ∈ cs, isBlank c = true := by
  have h : cs.reverse.dropWhile isBlank = [] ↔ ∀ c ∈ cs.reverse, isBlank c = true := by
    generalize cs.reverse = l
    induction l with
    | nil => simp
    | cons c l ih => by_cases hc : isBlank c = true <;> simp [hc, ih]
  simp only [trimEnd, List.reverse_eq_nil_iff, h, List.mem_reverse]

theorem strip_eq_nil_iff {cs : List Char} : strip cs = [] ↔ ∀ c ∈ cs, isBlank c = true := by
  induction cs with
  | nil => simp [strip, trimEnd]
  | cons c cs ih =>
    by_cases hc : isBlank c = true
    · simpa [strip, hc] using ih
    · simp [strip, trimEnd_eq_nil_iff, hc]

end MarkupCascade.Text
