import MarkupCascade.Proofs.Consultation

/-!
What of a state matters. A condition is about the keys of its clauses, and these stand in its text;
so two states cannot be told apart by a tree if they hold the same under the keys of the conditions
that are put to the evaluator for it. Not even the failures differ, since whether a condition can be
read is no matter of the state.
-/

namespace MarkupCascade

/-- The states hold the same under some keys. A key without an entry counts as one that holds
nothing, so to have no state at all is to have the empty one. -/
def State.AgreeOn (keys : List String) (s t : State) : Prop :=
  ∀ key ∈ keys, s.lookUp key = t.lookUp key

theorem State.AgreeOn.of_subset {keys keys' : List String} {s t : State} (h : AgreeOn keys s t)
    (subset : keys' ⊆ keys) : AgreeOn keys' s t :=
  fun key hkey => h key (subset hkey)

theorem Clause.holds_congr {c : Clause} {s t : State} (h : s.lookUp c.key = t.lookUp c.key) :
    c.holds s = c.holds t := by
  rw [holds, holds, h]

namespace Condition

/-- The keys that the clauses of a condition are about. A text that cannot be read is about none. -/
def keys (expression : String) : List String :=
  match parse expression with
  | .ok clauses => clauses.map (·.key)
  | .error _ => []

theorem evaluate_congr {expression : String} {s t : State}
    (h : State.AgreeOn (keys expression) s t) : evaluate s expression = evaluate t expression := by
  rw [evaluate, evaluate]
  cases parsed : parse expression with
  | error e => rfl
  | ok clauses =>
      have same : ∀ c ∈ clauses, c.holds s = c.holds t := by
        intro c hc
        refine Clause.holds_congr (h c.key ?_)
        rw [keys, parsed]
        exact List.mem_map_of_mem hc
      have whole : clauses.all (·.holds s) = clauses.all (·.holds t) := by
        rw [Bool.eq_iff_iff, List.all_eq_true, List.all_eq_true]
        exact forall₂_congr fun c hc => by rw [same c hc]
      rw [Except.map, Except.map, whole]

end Condition

namespace Cascade

/-- The keys of the conditions that are put to the evaluator for a tree. -/
def keysRead (sheet : Stylesheet) (root : Component) : List String :=
  (asked sheet root).flatMap Condition.keys

/-- Where two states agree on what they are asked about, they lead to the same. -/
def inStep_evaluate (s t : State) : InStep (Condition.evaluate s) (Condition.evaluate t) where
  Holds expressions x y := State.AgreeOn (expressions.flatMap Condition.keys) s t → x = y
  question expression agree := Condition.evaluate_congr (by simpa using agree)
  done _ _ := rfl
  next first rest agree := by
    rw [List.flatMap_append] at agree
    rw [first (agree.of_subset (List.subset_append_left _ _))]
    exact bind_congr fun a => rest a (agree.of_subset (List.subset_append_right _ _))

end Cascade

/-- A tree is resolved alike under two states that hold the same under the keys of its conditions
and of the conditions of the rules for it: to the same settings, from the same origins and in the
same order, or with the same error. -/
theorem Component.resolve_congr (root : Component) (sheet : Stylesheet) (s t : State)
    (agree : State.AgreeOn (Cascade.keysRead sheet root) s t) :
    root.resolve sheet s = root.resolve sheet t :=
  (Cascade.inStep_evaluate s t).holds_resolve sheet root agree

/-- No state at all, and one that holds nothing under one of the keys and something under a key that
no condition names. -/
theorem Component.resolve_congr_unnamed :
    let root : Component := .node "a" 1 [⟨"k", .default, some "x = on && !y", 1⟩] []
    let t : State := Table.ofList [("y", .null), ("z", .bool true)]
    State.AgreeOn (Cascade.keysRead {} root) ∅ t ∧ root.resolve {} ∅ = root.resolve {} t := by
  intro root t
  have named : Cascade.keysRead {} root = ["x", "y"] := rfl
  have agree : State.AgreeOn (Cascade.keysRead {} root) ∅ t := by
    rw [named]
    exact List.forall_mem_cons.2 ⟨rfl, List.forall_mem_singleton.2 rfl⟩
  exact ⟨agree, resolve_congr root {} ∅ t agree⟩

end MarkupCascade
