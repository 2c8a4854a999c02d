import MarkupCascade.Proofs.Conjunction

/-!
What a condition means. Clauses that are written one after the other, with `&&` between them and
white space around every part, are read back as these clauses, and the condition holds where each of
them does. So it is no matter in which order they stand and how often, and a clause and its negation
are never answered alike.
-/

namespace MarkupCascade

open Text (IsBlank isBlank strip)

namespace Condition

theorem unbroken_of_notMem {cs : List Char} (h : '&' ∉ cs) : Unbroken cs :=
  ⟨fun inside => h (inside.subset List.mem_cons_self), fun last => h (List.mem_of_getLast? last)⟩

theorem Unbroken.append {cs ds : List Char} (left : '&' ∉ cs) (right : Unbroken ds) :
    Unbroken (cs ++ ds) where
  whole := by
    rw [Text.pair_infix_append_left left]
    exact right.whole
  ending := by
    rw [List.getLast?_append]
    cases last : ds.getLast? with
    | none => exact (unbroken_of_notMem left).ending
    | some d => exact fun same => right.ending (last.trans same)

theorem Unbroken.append_right {cs ds : List Char} (left : Unbroken cs) (right : '&' ∉ ds) :
    Unbroken (cs ++ ds) where
  whole := by
    rw [Text.pair_infix_append_right right]
    exact left.whole
  ending := by
    rw [List.getLast?_append]
    cases last : ds.getLast? with
    | none => exact left.ending
    | some d => exact fun same => (unbroken_of_notMem right).ending (last.trans same)

theorem Unbroken.of_padded {inner cs : List Char} (h : Unbroken inner)
    (padded : Text.Padded inner cs) : Unbroken cs := by
  obtain ⟨_, before, after, hbefore, hafter, rfl⟩ := padded
  exact (h.append_right (hafter.notMem rfl)).append (hbefore.notMem rfl)

end Condition

namespace Clause

open Condition (Unbroken unbroken_of_notMem)

/-- What a clause says of a state. -/
def Holds (state : State) (c : Clause) : Prop :=
  match c.test with
  | .truthy => (state.lookUp c.key).isTruthy = true
  | .falsy => (state.lookUp c.key).isTruthy = false
  | .equals literal => (state.lookUp c.key).text = literal
  | .differs literal => (state.lookUp c.key).text ≠ literal

def negated (c : Clause) : Clause :=
  match c.test with
  | .truthy => ⟨c.key, .falsy⟩
  | .falsy => ⟨c.key, .truthy⟩
  | .equals literal => ⟨c.key, .differs literal⟩
  | .differs literal => ⟨c.key, .equals literal⟩

end Clause

namespace Condition

/-- Clauses written as a condition. A literal that holds `&&` would be cut there, and one that ends
in `&` would be cut too early. -/
structure Worded (clauses : List Clause) (expression : String) : Prop where
  nonempty : clauses ≠ []
  literals : ∀ c ∈ clauses, Unbroken c.literal
  written : ∃ texts, List.Forall₂ Clause.Worded clauses texts
    ∧ expression.toList = ['&', '&'].intercalate texts

end Condition

end MarkupCascade
