/-!
Places in a text: lines and columns, both counted from one. A line ends at a line feed and at
nothing else.
-/

namespace MarkupCascade

structure Position where
  line : Nat := 1
  column : Nat := 1
deriving DecidableEq, Repr

namespace Position

def next (p : Position) (c : Char) : Position :=
  if c == '\n' then ⟨p.line + 1, 1⟩ else ⟨p.line, p.column + 1⟩

/-- The place that some characters lead to. -/
def after (p : Position) (cs : List Char) : Position := cs.foldl next p

@[simp] theorem after_nil (p : Position) : p.after [] = p := rfl

@[simp] theorem after_append (p : Position) (as bs : List Char) :
    p.after (as ++ bs) = (p.after as).after bs := List.foldl_append

theorem line_next (p : Position) (c : Char) : (p.next c).line = p.line + [c].count '\n' := by
  by_cases lineFeed : c = '\n' <;> simp [next, lineFeed]

/-- Every line feed that is passed leads to a further line. -/
theorem line_after (p : Position) (cs : List Char) :
    (p.after cs).line = p.line + cs.count '\n' := by
  induction cs generalizing p with
  | nil => rfl
  | cons c cs ih =>
      have rest : (p.after (c :: cs)).line = (p.next c).line + cs.count '\n' := ih (p.next c)
      rw [rest, line_next, Nat.add_assoc, ← List.count_append, List.singleton_append]

theorem line_le_after (p : Position) (cs : List Char) : p.line ≤ (p.after cs).line := by
  rw [line_after]
  exact Nat.le_add_right _ _

end Position

end MarkupCascade
