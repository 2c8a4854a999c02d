import MarkupCascade.Proofs.ConditionCheck

/-!
Conditions joined by `&&`. Behind a text that does not end in `&` the separator begins where it is
written, so the pieces of two joined conditions are those of the first and then those of the second.
Whether a condition is refused, and with which error, is decided by its first piece that is no
clause; a state has no part in it, nor has the value of the clauses before that piece.
-/

namespace MarkupCascade

open Outcome
open Text (IsBlank isBlank strip)

namespace Condition

theorem pieces_append {left : List Char} (ending : left.getLast? ≠ some '&')
    (right : List Char) : pieces (left ++ '&' :: '&' :: right) = pieces left ++ pieces right := by
  fun_induction pieces left with
  | case1 => rfl
  | case2 cs ih =>
      have inner : cs.getLast? ≠ some '&' := fun last =>
        ending (by simp [List.getLast?_cons, last])
      simp only [List.cons_append, pieces, ih inner]
  | case3 c cs single piece others found ih =>
      have inner : cs.getLast? ≠ some '&' := fun last =>
        ending (by simp [List.getLast?_cons, last])
      have joined := ih inner
      rw [found, List.cons_append] at joined
      rw [List.cons_append, pieces_cons ?_ joined, List.cons_append]
      intro same
      -- An ampersand at the end of `left` would make a separator with the first of the two.
      cases cs with
      | nil => exact absurd (congrArg some same) ending
      | cons d cs => simpa using fun next => single cs same (by rw [next])
  | case4 c cs _ none =>
      obtain ⟨piece, others, found⟩ := exists_pieces_eq_cons cs
      rw [none] at found
      cases found

/-- A text that stays one piece between two separators. -/
structure Unbroken (cs : List Char) : Prop where
  whole : ¬['&', '&'] <:+: cs
  ending : cs.getLast? ≠ some '&'

theorem pieces_of_whole {cs : List Char} (whole : ¬['&', '&'] <:+: cs) : pieces cs = [cs] := by
  induction cs with
  | nil => rfl
  | cons c cs ih =>
      rw [List.infix_cons_iff, not_or] at whole
      apply pieces_cons _ (ih whole.2)
      intro same next
      cases cs with
      | nil => cases next
      | cons d cs =>
          cases next
          exact whole.1 (by simp [same])

theorem parse_of_not_blank {expression : String} (h : ¬IsBlank expression.toList) :
    parse expression = (pieces expression.toList).mapM Clause.parse := by
  have stripped : strip expression.toList ≠ [] := fun empty => h (Text.strip_eq_nil_iff.1 empty)
  simp [parse, stripped]

theorem evaluate_eq_ok_iff {state : State} {expression : String} {b : Bool} :
    evaluate state expression = .ok b
      ↔ ∃ clauses, parse expression = .ok clauses ∧ clauses.all (·.holds state) = b :=
  map_eq_ok_iff

theorem evaluate_eq_error_iff {state : State} {expression : String} {e : ConditionError} :
    evaluate state expression = .error e ↔ parse expression = .error e :=
  map_eq_error_iff

theorem parse_eq_error_iff {expression : String} {e : ConditionError} :
    parse expression = .error e ↔ ¬IsBlank expression.toList
      ∧ (pieces expression.toList).mapM Clause.parse = .error e := by
  by_cases blank : IsBlank expression.toList
  · have read : parse expression = .ok [] := by simp [parse, Text.strip_eq_nil_iff.2 blank]
    exact iff_of_false (by simp [read]) fun h => h.1 blank
  · rw [parse_of_not_blank blank, and_iff_right blank]

theorem parse_append {expression : String} (ending : expression.toList.getLast? ≠ some '&')
    (nonblank : ¬IsBlank expression.toList) (further : String) :
    parse (expression ++ "&&" ++ further) = (do
      let clauses ← parse expression
      let others ← (pieces further.toList).mapM Clause.parse
      pure (clauses ++ others)) := by
  have joined : (expression ++ "&&" ++ further).toList
      = expression.toList ++ '&' :: '&' :: further.toList := by simp
  have nonblank' : ¬IsBlank (expression ++ "&&" ++ further).toList := by
    rw [joined]
    exact fun blank => nonblank fun c hc => blank c (List.mem_append_left _ hc)
  rw [parse_of_not_blank nonblank', joined, pieces_append ending, List.mapM_append,
    ← parse_of_not_blank nonblank]

/-- The first piece of a condition that is no clause, and the error that names it. -/
def FirstRefused (expression : String) (e : ConditionError) : Prop :=
  ∃ before piece after, pieces expression.toList = before ++ piece :: after
    ∧ (∀ other ∈ before, ∃ c, Clause.parse other = .ok c)
    ∧ Clause.parse piece = .error e ∧ e.clause = String.ofList (strip piece)

theorem clause_of_parse_eq_error {piece : List Char} {e : ConditionError}
    (h : Clause.parse piece = .error e) : e.clause = String.ofList (strip piece) := by
  simp only [Clause.parse] at h
  split at h
  · cases h
  · cases h
    rfl

theorem parse_eq_error_iff_firstRefused {expression : String} {e : ConditionError} :
    parse expression = .error e ↔ ¬IsBlank expression.toList ∧ FirstRefused expression e := by
  rw [parse_eq_error_iff, mapM_eq_error_iff]
  apply and_congr_right
  intro _
  constructor
  · intro ⟨before, piece, after, whole, clauses, refused⟩
    exact ⟨before, piece, after, whole, clauses, refused, clause_of_parse_eq_error refused⟩
  · intro ⟨before, piece, after, whole, clauses, refused, _⟩
    exact ⟨before, piece, after, whole, clauses, refused⟩

/-- A condition is refused under every state or under none. -/
theorem exists_evaluate_eq_error_iff {expression : String} {state : State} :
    (∃ e, evaluate state expression = .error e) ↔ ¬IsBlank expression.toList
      ∧ ∃ piece ∈ pieces expression.toList, ∃ e, Clause.parse piece = .error e := by
  simp only [evaluate_eq_error_iff, parse_eq_error_iff, exists_and_left]
  apply and_congr_right
  intro _
  constructor
  · intro ⟨e, refused⟩
    obtain ⟨before, piece, after, whole, _, refused⟩ := mapM_eq_error_iff.1 refused
    exact ⟨piece, by simp [whole], e, refused⟩
  · intro ⟨piece, inside, e, refused⟩
    cases read : (pieces expression.toList).mapM Clause.parse with
    | error e' => exact ⟨e', rfl⟩
    | ok clauses =>
        obtain ⟨c, accepted⟩ := exists_mapM_eq_ok_iff.1 ⟨clauses, read⟩ piece inside
        rw [refused] at accepted
        cases accepted

theorem evaluate_append_of_error {expression : String} {state : State} {e : ConditionError}
    (ending : expression.toList.getLast? ≠ some '&')
    (refused : evaluate state expression = .error e) (further : String) :
    evaluate state (expression ++ "&&" ++ further) = .error e := by
  rw [evaluate_eq_error_iff] at refused ⊢
  rw [parse_append ending (parse_eq_error_iff.1 refused).1, refused]
  rfl

theorem evaluate_append_eq_ok_iff {expression further : String} {state : State} {b : Bool}
    (ending : expression.toList.getLast? ≠ some '&') (nonblank : ¬IsBlank expression.toList)
    (nonblank' : ¬IsBlank further.toList) :
    evaluate state (expression ++ "&&" ++ further) = .ok b ↔ ∃ left right,
      evaluate state expression = .ok left ∧ evaluate state further = .ok right
        ∧ (left && right) = b := by
  simp only [evaluate_eq_ok_iff]
  rw [parse_append ending nonblank, ← parse_of_not_blank nonblank']
  simp only [bind_eq_ok_iff, pure_eq_ok_iff]
  constructor
  · intro ⟨_, ⟨clauses, first, others, second, rfl⟩, value⟩
    rw [List.all_append] at value
    exact ⟨_, _, ⟨clauses, first, rfl⟩, ⟨others, second, rfl⟩, value⟩
  · intro ⟨_, _, ⟨clauses, first, rfl⟩, ⟨others, second, rfl⟩, value⟩
    exact ⟨_, ⟨clauses, first, others, second, rfl⟩, by rw [List.all_append]; exact value⟩

/-- Whether a condition is refused is a matter of its text. It is refused alike under all states,
namely if it is not blank and one of its pieces is no clause, and the first such piece is named.
Behind a condition that does not end in `&` more may follow: it does not mend what is refused, and
two conditions that are not blank are read in a row exactly if both are, as their conjunction. -/
theorem refused_by_text (expression : String) :
    (∀ (s t : State) e, evaluate s expression = .error e ↔ evaluate t expression = .error e)
    ∧ (∀ state : State, (∃ e, evaluate state expression = .error e)
        ↔ ¬IsBlank expression.toList
          ∧ ∃ piece ∈ pieces expression.toList, ∃ e, Clause.parse piece = .error e)
    ∧ (∀ (state : State) e, evaluate state expression = .error e → FirstRefused expression e)
    ∧ (expression.toList.getLast? ≠ some '&' → ∀ (state : State) further,
        (∀ e, evaluate state expression = .error e →
          evaluate state (expression ++ "&&" ++ further) = .error e)
        ∧ (¬IsBlank expression.toList → ¬IsBlank further.toList → ∀ b,
          evaluate state (expression ++ "&&" ++ further) = .ok b ↔ ∃ left right,
            evaluate state expression = .ok left ∧ evaluate state further = .ok right
              ∧ (left && right) = b)) := by
  refine ⟨?_, fun _ => exists_evaluate_eq_error_iff, ?_, ?_⟩
  · intro s t e
    rw [evaluate_eq_error_iff, evaluate_eq_error_iff]
  · intro state e refused
    exact (parse_eq_error_iff_firstRefused.1 (evaluate_eq_error_iff.1 refused)).2
  · intro ending state further
    exact ⟨fun e refused => evaluate_append_of_error ending refused further,
      fun nonblank nonblank' b => evaluate_append_eq_ok_iff ending nonblank nonblank'⟩

/-- A clause that is refused behind one that is false already, and two conditions in a row of which
the second begins and ends next to an ampersand of its own. -/
theorem refused_by_text_behind_false :
    (evaluate ∅ "x && y z" = .error ⟨"y z", "y z"⟩ ∧ evaluate ∅ "x" = .ok false
      ∧ FirstRefused "x && y z" ⟨"y z", "y z"⟩
      ∧ evaluate ∅ ("x && y z" ++ "&&" ++ "&") = .error ⟨"y z", "y z"⟩)
    ∧ evaluate ∅ "!x" = .ok true ∧ evaluate ∅ "y!=&" = .ok true
      ∧ evaluate ∅ ("!x" ++ "&&" ++ "y!=&") = .ok true := by
  have refused : evaluate ∅ "x && y z" = .error ⟨"y z", "y z"⟩ := rfl
  have first : evaluate ∅ "!x" = .ok true := rfl
  have second : evaluate ∅ "y!=&" = .ok true := rfl
  obtain ⟨_, _, named, behind⟩ := refused_by_text "x && y z"
  obtain ⟨_, _, _, joined⟩ := refused_by_text "!x"
  have marked (text : String) (h : '!' ∈ text.toList) : ¬IsBlank text.toList :=
    fun blank => blank.notMem rfl h
  have kept := (behind (by simp) ∅ "&").1 _ refused
  have both := ((joined (by simp) ∅ "y!=&").2 (marked _ (by simp)) (marked _ (by simp)) true).2
    ⟨true, true, first, second, rfl⟩
  exact ⟨⟨refused, rfl, named ∅ _ refused, kept⟩, first, second, both⟩

end Condition

end MarkupCascade
