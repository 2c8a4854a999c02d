import MarkupCascade.Proofs.ConditionCheck

/-!
What the check of conditions reports. It goes through the declarations in their order and says
nothing of one, or names the first of its clauses that does not fit the pattern. It gives no false
alarm: a condition that the evaluator reads passes, as long as its literals are without operators
and ampersands.
-/

namespace MarkupCascade.Validation

open Outcome
open Text (IsBlank isBlank strip)

/-- The condition that is checked. It is blank for a declaration that has none. -/
def Declared.text (d : Declared) : List Char := strip (d.declared.condition.getD "").toList

/-- What is said of a piece that does not fit. -/
def Declared.alarm (d : Declared) (piece : List Char) : Diagnostic where
  rule := "check_condition_syntax"
  severity := .warning
  message := "Invalid condition syntax: '" ++ String.ofList (strip piece) ++ "' in '"
    ++ String.ofList d.text ++ "'."
  line := some d.line
  source := d.source
  fix := some "Conditions use key, !key, key=value or key!=value separated by &&."

def Declared.Passes (d : Declared) : Prop :=
  d.text = [] ∨ ∀ piece ∈ Condition.pieces d.text, Fits piece

/-- The first piece of a condition that does not fit. -/
def Declared.FirstUnfit (d : Declared) (piece : List Char) : Prop :=
  d.text ≠ [] ∧ ¬Fits piece ∧ ∃ before after, Condition.pieces d.text = before ++ piece :: after
    ∧ ∀ other ∈ before, Fits other

/-- A list of reports goes along with the declarations, each of which passes or is reported once. -/
inductive Reports : List Declared → List Diagnostic → Prop
  | nil : Reports [] []
  | passes {d : Declared} {ds : List Declared} {found : List Diagnostic} :
      d.Passes → Reports ds found → Reports (d :: ds) found
  | alarm {d : Declared} {piece : List Char} {ds : List Declared} {found : List Diagnostic} :
      d.FirstUnfit piece → Reports ds found → Reports (d :: ds) (d.alarm piece :: found)

theorem passes_of_badClause?_eq_none {d : Declared} (h : badClause? d.text = none) : d.Passes := by
  cases badClause?_eq_none_iff.1 h with
  | inl blank => exact .inl blank
  | inr clauses => exact .inr fun piece inside => isClause_iff.1 (clauses piece inside)

theorem firstUnfit_of_badClause?_eq_some {d : Declared} {piece : List Char}
    (h : badClause? d.text = some piece) : d.FirstUnfit piece := by
  unfold badClause? at h
  split at h
  · cases h
  · rename_i filled
    obtain ⟨unfit, before, after, whole, others⟩ := List.find?_eq_some_iff_append.1 h
    refine ⟨by simpa using filled, ?_, before, after, whole, ?_⟩
    · rw [← isClause_iff]
      simpa using unfit
    · intro other inside
      rw [← isClause_iff]
      simpa using others other inside

theorem reports_filterMap (ds : List Declared) :
    Reports ds (ds.filterMap fun d => (badClause? d.text).map d.alarm) := by
  induction ds with
  | nil => exact .nil
  | cons d ds ih =>
      rw [List.filterMap_cons]
      cases found : badClause? d.text with
      | none => exact .passes (passes_of_badClause?_eq_none found) ih
      | some piece => exact .alarm (firstUnfit_of_badClause?_eq_some found) ih

/-- White space around a condition is nothing to the reading of its pieces. -/
theorem exists_piece_of_strip {cs piece : List Char} (h : piece ∈ Condition.pieces (strip cs)) :
    ∃ original ∈ Condition.pieces cs, Clause.parse original = Clause.parse piece := by
  have inside : strip piece ∈ (Condition.pieces cs).map strip := by
    rw [← Condition.map_strip_pieces_strip]
    exact List.mem_map_of_mem h
  obtain ⟨original, there, same⟩ := List.mem_map.1 inside
  exact ⟨original, there, by rw [Clause.parse, Clause.parse, same]⟩

theorem passes_of_evaluate {d : Declared} {condition : String}
    (gated : d.declared.condition = some condition) {state : State} {b : Bool}
    (evaluated : Condition.evaluate state condition = .ok b)
    (usual : ∀ piece ∈ Condition.pieces condition.toList, ∀ c, Clause.parse piece = .ok c →
      Usual c.literal) : d.Passes := by
  have text : d.text = strip condition.toList := by rw [Declared.text, gated]; rfl
  obtain ⟨clauses, read, _⟩ := map_eq_ok_iff.1 evaluated
  rw [Declared.Passes, text]
  cases Condition.exists_parse_eq_ok_iff.1 ⟨clauses, read⟩ with
  | inl blank => exact .inl blank
  | inr readable =>
      refine .inr fun piece inside => ?_
      obtain ⟨c, accepted⟩ := readable piece inside
      obtain ⟨original, there, same⟩ := exists_piece_of_strip inside
      exact fits_of_parse accepted (usual original there c (same.trans accepted))

/-- The check of conditions goes through the declarations of the stylesheet and then through those
of the template, at the line of each or, if that is 0, of its rule or component. Each declaration
passes or is reported with the first piece of its condition that does not fit the pattern; and it
passes if its condition is read and has usual literals. -/
theorem conditionSyntax_reports (root : Component) (sheet : Stylesheet) (config : Configuration) :
    let ofSheet := sheet.rules.flatMap fun r => r.attributes.map fun a =>
      Declared.mk a sheet.name (if a.line = 0 then r.line else a.line)
    let ofTemplate := root.walk.flatMap fun c => c.attributes.map fun a =>
      Declared.mk a "template" (if a.line = 0 then c.line else a.line)
    Reports (ofSheet ++ ofTemplate) (conditionSyntax root sheet config)
    ∧ ∀ d ∈ ofSheet ++ ofTemplate, ∀ condition, d.declared.condition = some condition →
      ∀ state b, Condition.evaluate state condition = .ok b →
        (∀ piece ∈ Condition.pieces condition.toList, ∀ c, Clause.parse piece = .ok c →
          Usual c.literal) → d.Passes :=
  ⟨reports_filterMap (declarations root sheet), fun _ _ _ gated _ _ evaluated usual =>
    passes_of_evaluate gated evaluated usual⟩

/-- A condition that passes, behind one that is reported although it is read: its literal holds an
operator. -/
theorem conditionSyntax_reports_unusual :
    let root : Component := .node "a" 1 [⟨"k", .default, some " x = (1) &&! y", 2⟩] []
    let sheet : Stylesheet := ⟨[⟨"a", [⟨"j", .default, some "x=a=b", 0⟩], 3⟩], "s"⟩
    let d : Declared := ⟨⟨"j", .default, some "x=a=b", 0⟩, "s", 3⟩
    let e : Declared := ⟨⟨"k", .default, some " x = (1) &&! y", 2⟩, "template", 2⟩
    Condition.evaluate ∅ "x=a=b" = .ok false ∧ Condition.evaluate ∅ " x = (1) &&! y" = .ok false
      ∧ Reports [d, e] (conditionSyntax root sheet {}) ∧ d.FirstUnfit "x=a=b".toList
      ∧ e.Passes := by
  intro root sheet d e
  have evaluated : Condition.evaluate ∅ " x = (1) &&! y" = .ok false := rfl
  have pieces : Condition.pieces " x = (1) &&! y".toList
      = [" x = (1) ".toList, "! y".toList] := rfl
  have usual : ∀ piece ∈ Condition.pieces " x = (1) &&! y".toList, ∀ c,
      Clause.parse piece = .ok c → Usual c.literal := by
    rw [pieces]
    refine List.forall_mem_cons.2 ⟨fun c read => ?_, List.forall_mem_singleton.2 fun c read => ?_⟩
    · cases read
      have literal : Usual "(1)".toList := by simp [Usual]
      exact literal
    · cases read
      exact fun _ none => absurd none List.not_mem_nil
  have bad : badClause? (Declared.text ⟨⟨"j", .default, some "x=a=b", 0⟩, "s", 3⟩)
      = some "x=a=b".toList := rfl
  obtain ⟨reports, passes⟩ := conditionSyntax_reports root sheet {}
  exact ⟨rfl, evaluated, reports, firstUnfit_of_badClause?_eq_some bad,
    passes e (.tail _ (.head _)) _ rfl ∅ _ evaluated usual⟩

end MarkupCascade.Validation
