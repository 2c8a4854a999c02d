import Mathlib
import MarkupCascade.Proofs.FaultLine
import MarkupCascade.Proofs.Sheet

/-!
Documents one below the other. Where a document that is read ends, no block is open; so what stands
below it is read as it would be by itself, but for its place: a sheet has the rules of its parts one
after the other, and the fault of the second part is that of the whole, as many lines further down
as the first part is long.
-/

namespace MarkupCascade

open Outcome

namespace LogicalLine

variable {s : String}

theorem physicalLines_below (apart : ∀ c ∈ s.toList.getLast?, c ≠ '\r') (t : String) :
    physicalLines (s ++ "\n" ++ t).toList
      = physicalLines s.toList ++ physicalLines t.toList := by
  have ends : EndsLine s.toList ['\n'] := .inr ⟨rfl, apart⟩
  rw [← physicalLines_append_lineEnd ends, String.toList_append, String.toList_append,
    List.append_assoc]
  rfl

theorem split_below (apart : ∀ c ∈ s.toList.getLast?, c ≠ '\r') (t : String) :
    split (s ++ "\n" ++ t)
      = (gather (1 + (physicalLines s.toList).length) (stillOpen 1 none (physicalLines s.toList))
          (physicalLines t.toList)).prepend (split s).lines := by
  rw [split, physicalLines_below apart, gather_append]
  rfl

/-- Below a document without an open block the lines are found as they are by themselves. -/
theorem split_below_of_complete (apart : ∀ c ∈ s.toList.getLast?, c ≠ '\r')
    (complete : (split s).unclosed = none) (t : String) :
    split (s ++ "\n" ++ t)
      = ((split t).movedBy (physicalLines s.toList).length).prepend (split s).lines := by
  have closed : stillOpen 1 none (physicalLines s.toList) = none := by
    rw [split, unclosed_gather] at complete
    exact Option.map_eq_none_iff.1 complete
  have moved := gather_movedBy (physicalLines s.toList).length 1 none (physicalLines t.toList)
  rw [split_below apart, closed]
  exact congrArg (Split.prepend _) moved

end LogicalLine

open LogicalLine

namespace Stylesheet

variable {s name : String} {first : Stylesheet}

theorem parse_below (apart : ∀ c ∈ s.toList.getLast?, c ≠ '\r')
    (parsed : parse s name = .ok first) (t : String) :
    parse (s ++ "\n" ++ t) name
      = bimap (·.movedBy (physicalLines s.toList).length)
          (fun rest =>
            ⟨first.rules ++ rest.rules.map (·.movedBy (physicalLines s.toList).length), name⟩)
          (parse t name) := by
  obtain ⟨complete, _, each⟩ := parse_eq_ok_iff.1 parsed
  have rules : (split s).lines.mapM rule = .ok first.rules := mapM_eq_ok_iff.2 each
  rw [parse, parse, split_below_of_complete apart complete]
  generalize (physicalLines s.toList).length = k
  have others : ((split t).lines.map (·.movedBy k)).mapM rule
      = bimap (·.movedBy k) (List.map (·.movedBy k)) ((split t).lines.mapM rule) :=
    mapM_map_eq_bimap fun l _ => rule_movedBy k l
  simp only [Split.prepend, Split.movedBy, List.mapM_append, rules, others]
  cases (split t).lines.mapM rule with
  | error e => rfl
  | ok found => cases (split t).unclosed <;> rfl

/-- Why a sheet is refused: for a line of it, or for a block without an end behind lines that are
read. -/
theorem error_cases {e : ReadError} (h : parse s name = .error e) :
    (split s).lines.mapM rule = .error e
      ∨ ∃ number, (split s).unclosed = some number ∧ e = .unclosed number := by
  rw [parse] at h
  cases found : (split s).lines.mapM rule with
  | error e' =>
      rw [found] at h
      cases h
      exact .inl rfl
  | ok rules =>
      rw [found] at h
      cases unclosed : (split s).unclosed with
      | none =>
          rw [unclosed] at h
          cases h
      | some number =>
          rw [unclosed] at h
          cases h
          exact .inr ⟨number, rfl, rfl⟩

/-- A sheet is refused for a fault that has a line. -/
theorem exists_line_of_parse {e : ParseError} (h : parse s name = .error (.parse e)) :
    ∃ line, e.line = some line := by
  have located : Fails (ReadError.From 0) ((split s).lines.mapM rule) :=
    fails_mapM fun l _ => (fails_rule_from l).imp (ReadError.from_anti (Int.natCast_nonneg _))
  obtain fault | ⟨number, _, same⟩ := error_cases h
  · obtain ⟨_, line, found, _⟩ := located _ fault
    exact ⟨line, found⟩
  · cases same
    exact ⟨number, rfl⟩

/-- A sheet that is read and a text below it: the rules of the one are followed by those of the
other, or the text is refused as it is by itself, and all its lines are counted on. -/
theorem parse_concatenated (apart : ∀ c ∈ s.toList.getLast?, c ≠ '\r')
    (parsed : parse s name = .ok first) (t : String) :
    let k := (physicalLines s.toList).length
    (∀ rest, parse t name = .ok rest →
        parse (s ++ "\n" ++ t) name = .ok ⟨first.rules ++ rest.rules.map (·.movedBy k), name⟩)
      ∧ ∀ e, parse t name = .error (.parse e) → ∃ (line : Int) (e' : ParseError),
        parse (s ++ "\n" ++ t) name = .error (.parse e')
          ∧ e'.cause = e.cause ∧ e'.column = e.column
          ∧ (e.line = some line ∧ e.message = s!"line {line}: " ++ e.cause.message)
          ∧ e'.line = some (line + k) ∧ e'.message = s!"line {line + k}: " ++ e.cause.message := by
  intro k
  have whole := parse_below apart parsed t
  constructor
  · intro rest read
    rw [whole, read]
    rfl
  · intro e refused
    obtain ⟨line, found⟩ := exists_line_of_parse refused
    refine ⟨line, e.movedBy k, ?_, rfl, rfl, ⟨found, ?_⟩, ?_, ?_⟩
    · rw [whole, refused]
      rfl
    · rw [ParseError.message, found]
    · rw [ParseError.movedBy, found]
      rfl
    · rw [ParseError.message, ParseError.movedBy, found]
      rfl

/-- A rule over two lines; below it another rule behind an empty line, or a key without a value. -/
theorem parse_concatenated_twoLines :
    let s := "a \x7b\n k: 1\x7d"
    let rule : StyleRule := ⟨"a", [⟨"k", .integer 1, none, 2⟩], 1⟩
    parse s "s" = .ok ⟨[rule], "s"⟩
      ∧ parse (s ++ "\n" ++ "\nb \x7bj: 2\x7d") "s"
        = .ok ⟨[rule, ⟨"b", [⟨"j", .integer 2, none, 4⟩], 4⟩], "s"⟩
      ∧ ∃ e, parse (s ++ "\n" ++ "b \x7bj\x7d") "s" = .error (.parse e)
        ∧ e.cause = .unexpectedToken "\x7d" ∧ e.column = some 5 ∧ e.line = some 3 := by
  intro s rule
  have apart : ∀ c ∈ s.toList.getLast?, c ≠ '\r' := by simp [s]
  have first : parse s "s" = .ok ⟨[rule], "s"⟩ := by cbv
  have second : parse "\nb \x7bj: 2\x7d" "s"
      = .ok ⟨[⟨"b", [⟨"j", .integer 2, none, 2⟩], 2⟩], "s"⟩ := by cbv
  have refused : parse "b \x7bj\x7d" "s"
      = .error (.parse ⟨.unexpectedToken "\x7d", some 1, some 5⟩) := by cbv
  have length : (physicalLines s.toList).length = 2 := by decide
  have read := (parse_concatenated apart first _).1 _ second
  obtain ⟨line, e, failed, cause, column, ⟨same, _⟩, further, _⟩ :=
    (parse_concatenated apart first _).2 _ refused
  cases same
  rw [length] at read further
  exact ⟨first, read, e, failed, cause, column, further⟩

end Stylesheet

end MarkupCascade
