import Mathlib
import MarkupCascade.Proofs.ClausePattern
import MarkupCascade.Proofs.Outcome
import MarkupCascade.Proofs.Settlement
import MarkupCascade.Template

/-!
What the check of conditions is worth. A template is resolved exactly if every condition that is put
to the evaluator can be read. If the check has nothing to report, the conditions that cannot be read
are those with a clause that compares a negated key.
-/

namespace MarkupCascade

open Outcome
open Text (IsBlank isBlank strip trimEnd)

namespace Condition

/-! White space at the ends of a condition makes no difference to its pieces but at their ends. -/

theorem exists_pieces_eq_cons (cs : List Char) : ∃ piece others, pieces cs = piece :: others := by
  unfold pieces
  split
  · exact ⟨_, _, rfl⟩
  · exact ⟨_, _, rfl⟩
  · split <;> exact ⟨_, _, rfl⟩

theorem pieces_cons {c : Char} {cs piece : List Char} {others : List (List Char)}
    (h : c = '&' → cs.head? ≠ some '&') (inner : pieces cs = piece :: others) :
    pieces (c :: cs) = (c :: piece) :: others := by
  rw [pieces, inner]
  rintro rest rfl rfl
  exact h rfl rfl

theorem map_strip_pieces_blank_append {blank : List Char} (h : IsBlank blank) (cs : List Char) :
    (pieces (blank ++ cs)).map strip = (pieces cs).map strip := by
  induction blank with
  | nil => rfl
  | cons c blank ih =>
      obtain ⟨first, others⟩ := List.forall_mem_cons.1 h
      obtain ⟨piece, more, found⟩ := exists_pieces_eq_cons (blank ++ cs)
      rw [List.cons_append, pieces_cons ?_ found, ← ih others, found, List.map_cons, List.map_cons,
        Text.strip_cons_blank first]
      rintro rfl
      cases first

theorem map_trimEnd_pieces_concat {c : Char} (h : isBlank c = true) (cs : List Char) :
    (pieces (cs ++ [c])).map trimEnd = (pieces cs).map trimEnd := by
  have other : c ≠ '&' := by rintro rfl; cases h
  fun_induction pieces cs with
  | case1 =>
      obtain ⟨piece, others, found⟩ := exists_pieces_eq_cons []
      rw [List.nil_append, pieces_cons (by simp) rfl]
      exact congrArg (· :: []) (Text.trimEnd_concat_blank h [])
  | case2 cs ih => rw [List.cons_append, List.cons_append, pieces, List.map_cons, ih, List.map_cons]
  | case3 d cs single piece others found ih =>
      obtain ⟨piece', others', found'⟩ := exists_pieces_eq_cons (cs ++ [c])
      rw [found', found, List.map_cons, List.map_cons] at ih
      obtain ⟨first, rest⟩ := List.cons.inj ih
      rw [List.cons_append, pieces_cons ?_ found', List.map_cons, List.map_cons, rest,
        Text.trimEnd_cons_congr first]
      rintro rfl
      cases cs with
      | nil => simpa using other
      | cons d cs => simpa using single cs
  | case4 d cs _ none =>
      obtain ⟨piece, others, found⟩ := exists_pieces_eq_cons cs
      rw [none] at found
      cases found

theorem map_strip_pieces_concat {c : Char} (h : isBlank c = true) (cs : List Char) :
    (pieces (cs ++ [c])).map strip = (pieces cs).map strip := by
  have same := congrArg (List.map strip) (map_trimEnd_pieces_concat h cs)
  simpa only [List.map_map, Function.comp_def, Text.strip_trimEnd] using same

theorem map_strip_pieces_append_blank {blank : List Char} (h : IsBlank blank) (cs : List Char) :
    (pieces (cs ++ blank)).map strip = (pieces cs).map strip := by
  induction blank generalizing cs with
  | nil => rw [List.append_nil]
  | cons c blank ih =>
      obtain ⟨first, others⟩ := List.forall_mem_cons.1 h
      rw [List.append_cons, ih others, map_strip_pieces_concat first]

theorem map_strip_pieces_strip (cs : List Char) :
    (pieces (strip cs)).map strip = (pieces cs).map strip := by
  obtain ⟨before, after, hbefore, hafter, whole⟩ := Text.exists_eq_strip cs
  have same := (map_strip_pieces_blank_append hbefore (strip cs ++ after)).trans
    (map_strip_pieces_append_blank hafter (strip cs))
  rw [← whole] at same
  exact same.symm

theorem exists_parse_eq_ok_iff {expression : String} :
    (∃ clauses, parse expression = .ok clauses)
      ↔ strip expression.toList = []
        ∨ ∀ piece ∈ pieces (strip expression.toList), ∃ c, Clause.parse piece = .ok c := by
  have stripped (cs : List Char) : (∀ piece ∈ pieces cs, ∃ c, Clause.parse piece = .ok c)
      ↔ ∀ piece ∈ (pieces cs).map strip, Clause.isKey (Clause.parts piece).1 = true := by
    simp only [Clause.exists_parse_eq_ok_iff, List.forall_mem_map]
  rw [parse, stripped, map_strip_pieces_strip, ← stripped, ← exists_mapM_eq_ok_iff]
  split
  · simp_all
  · simp_all

end Condition

namespace Validation

theorem badClause?_eq_none_iff {condition : List Char} :
    badClause? condition = none
      ↔ condition = [] ∨ ∀ piece ∈ Condition.pieces condition, isClause piece = true := by
  unfold badClause?
  split
  · simp_all
  · rename_i nonempty
    simp only [List.find?_eq_none, Bool.not_eq_true', Bool.not_eq_false]
    exact ⟨.inr, fun given => given.resolve_left (by simpa using nonempty)⟩

/-- A condition that passes the check is read unless it compares a negated key. -/
theorem exists_evaluate_iff {expression : String}
    (h : badClause? (strip expression.toList) = none) (state : State) :
    (∃ b, Condition.evaluate state expression = .ok b)
      ↔ ∀ piece ∈ Condition.pieces (strip expression.toList), ¬Clause.NegatedComparison piece := by
  rw [Condition.evaluate, exists_map_eq_ok_iff, Condition.exists_parse_eq_ok_iff]
  obtain blank | clauses := badClause?_eq_none_iff.1 h
  · rw [blank]
    refine iff_of_true (.inl rfl) ?_
    rintro piece hpiece ⟨mark, _⟩
    obtain rfl : piece = [] := by simpa [Condition.pieces] using hpiece
    cases mark
  · constructor
    · rintro (blank | readable) piece hpiece
      · rw [blank] at hpiece clauses
        exact absurd (clauses piece hpiece) (by simp_all [Condition.pieces, isClause])
      · exact (exists_parse_iff (clauses piece hpiece)).1 (readable piece hpiece)
    · exact fun single => .inr fun piece hpiece =>
        (exists_parse_iff (clauses piece hpiece)).2 (single piece hpiece)

theorem conditionSyntax_eq_nil_iff {root : Component} {sheet : Stylesheet}
    {config : Configuration} :
    conditionSyntax root sheet config = [] ↔ ∀ d ∈ declarations root sheet,
      badClause? (strip (d.declared.condition.getD "").toList) = none := by
  simp [conditionSyntax, List.filterMap_eq_nil_iff]

end Validation

namespace Cascade

/-- A tree is resolved exactly if the evaluator answers every condition of every component. -/
theorem exists_resolve_iff {ε : Type} {ask : String → Except ε Bool} {sheet : Stylesheet}
    {root : Component} :
    (∃ r, resolve ask sheet root = .ok r)
      ↔ ∀ c ∈ root.walk, ∀ d ∈ declared sheet c.className c.line c.attributes,
        ∀ condition ∈ d.1.condition, ∃ b, ask condition = .ok b := by
  have listed : (∃ r, resolve ask sheet root = .ok r)
      ↔ ∃ rs, (root.outline 0).mapM (resolveAt ask sheet) = .ok rs := by
    rw [← outline_resolve]
    exact exists_map_eq_ok_iff.symm
  have component (t : Nat × Component) : (∃ r, resolveAt ask sheet t = .ok r)
      ↔ ∀ d ∈ declared sheet t.2.className t.2.line t.2.attributes, ∃ b, verdict ask d = .ok b := by
    rw [← exists_mapM_eq_ok_iff, resolveAt, resolveAttributes_eq]
    simp only [map_bind, map_pure, bind_eq_ok_iff, pure_eq_ok_iff]
    constructor
    · rintro ⟨_, answers, answered, _⟩
      exact ⟨answers, answered⟩
    · rintro ⟨answers, answered⟩
      exact ⟨_, answers, answered, rfl⟩
  have asked (d : Attribute × Origin) : (∃ b, verdict ask d = .ok b)
      ↔ ∀ condition ∈ d.1.condition, ∃ b, ask condition = .ok b := by
    rw [verdict]
    split
    · rename_i none
      simp [none, pure_eq_ok_iff]
    · rename_i expression some
      simp [some]
  simp only [listed, exists_mapM_eq_ok_iff, component, asked, Component.walk, List.forall_mem_map]

end Cascade

namespace Validation

theorem exists_mem_declarations {root c : Component} {sheet : Stylesheet} {d : Attribute × Origin}
    (hc : c ∈ root.walk) (hd : d ∈ Cascade.declared sheet c.className c.line c.attributes) :
    ∃ e ∈ declarations root sheet, e.declared = d.1 := by
  simp only [Cascade.declared, List.mem_append, List.mem_flatMap, List.mem_map, List.mem_filter]
    at hd
  obtain ⟨r, ⟨hr, _⟩, a, ha, rfl⟩ | ⟨a, ha, rfl⟩ := hd
  · exact ⟨⟨a, sheet.name, a.lineOr r.line⟩, List.mem_append_left _
      (List.mem_flatMap.2 ⟨r, hr, List.mem_map_of_mem ha⟩), rfl⟩
  · exact ⟨⟨a, "template", a.lineOr c.line⟩, List.mem_append_right _
      (List.mem_flatMap.2 ⟨c, hc, List.mem_map_of_mem ha⟩), rfl⟩

/-- Where the check of conditions has nothing to report, a template is resolved under any state,
unless a condition that is put to the evaluator compares a negated key. -/
theorem resolve_iff_no_negatedComparison (root : Component) (sheet : Stylesheet)
    (config : Configuration) (passed : conditionSyntax root sheet config = []) (state : State) :
    (∃ r, root.resolve sheet state = .ok r)
      ↔ ∀ c ∈ root.walk, ∀ d ∈ Cascade.declared sheet c.className c.line c.attributes,
        ∀ condition ∈ d.1.condition, ∀ piece ∈ Condition.pieces (strip condition.toList),
          ¬Clause.NegatedComparison piece := by
  rw [Component.resolve, Cascade.exists_resolve_iff]
  refine forall₂_congr fun c hc => forall₂_congr fun d hd => forall₂_congr fun condition some => ?_
  obtain ⟨e, declared, same⟩ := exists_mem_declarations hc hd
  have checked := conditionSyntax_eq_nil_iff.1 passed e declared
  rw [same, Option.mem_def.1 some] at checked
  exact exists_evaluate_iff checked state

theorem resolve_iff_no_negatedComparison_gated :
    let root : Component := .node "a" 1 [⟨"k", .default, some "!x && y != (z)", 1⟩] []
    conditionSyntax root {} {} = [] ∧ ∃ r, root.resolve {} ∅ = .ok r := by
  intro root
  have passed : conditionSyntax root {} {} = [] := rfl
  have pieces : Condition.pieces (strip "!x && y != (z)".toList)
      = ["!x ".toList, " y != (z)".toList] := by cbv
  refine ⟨passed, (resolve_iff_no_negatedComparison root {} {} passed ∅).2 ?_⟩
  intro c hc d hd condition asked piece hpiece
  obtain rfl : c = root := by
    simpa [root, Component.walk, Component.outline, Component.outlineAll] using hc
  have same : condition = "!x && y != (z)" := by
    simp_all [Cascade.declared, root, Component.attributes]
  rw [same, pieces] at hpiece
  obtain rfl | rfl : piece = "!x ".toList ∨ piece = " y != (z)".toList := by simpa using hpiece
  · decide
  · decide

/-- A comparison of a negated key passes the check, and is no clause. -/
theorem negatedComparison_passes :
    ∃ root, Component.parse "a \x7b k?\x7b!x=1\x7d: 1 \x7d" = .ok root ∧ conditionSyntax root {} {} = []
      ∧ root.resolve {} ∅ = .error ⟨"!x", "!x=1"⟩ := by
  refine ⟨.node "a" 1 [⟨"k", .integer 1, some "!x=1", 1⟩] [], ?_, rfl, rfl⟩
  cbv

end Validation

end MarkupCascade
