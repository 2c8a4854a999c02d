import MarkupCascade.Proofs.Grouping
import MarkupCascade.Validation

/-!
Rules that match no component. Validation reports each of them, in the order of the sheet, and no
other rule. Any of them may be deleted from the sheet without a difference to the tree, whereas a
rule that is not reported is among those that match some component.
-/

namespace MarkupCascade.Validation

/-- No component of the tree has the class of the rule. -/
def IsUnused (root : Component) (r : StyleRule) : Prop :=
  ∀ c ∈ root.walk, c.className ≠ r.className

instance (root : Component) : DecidablePred (IsUnused root) :=
  fun r => inferInstanceAs (Decidable (∀ c ∈ root.walk, c.className ≠ r.className))

/-- What is reported of a rule that is unused. -/
def unusedReport (sheet : Stylesheet) (r : StyleRule) : Diagnostic where
  rule := "check_unused_style_rules"
  severity := .info
  message := s!"Style rule for '{r.className}' matches no component."
  line := some r.line
  source := sheet.name

/-- The rules that are left when some unused ones are deleted. -/
inductive Pruned (root : Component) : List StyleRule → List StyleRule → Prop
  | nil : Pruned root [] []
  | keep {r : StyleRule} {rules left : List StyleRule} :
      Pruned root rules left → Pruned root (r :: rules) (r :: left)
  | drop {r : StyleRule} {rules left : List StyleRule} :
      IsUnused root r → Pruned root rules left → Pruned root (r :: rules) left

variable {root : Component}

theorem contains_className_iff {r : StyleRule} :
    (root.walk.map (·.className)).contains r.className = true ↔ ¬IsUnused root r := by
  simp [IsUnused]

theorem unusedStyleRules_eq (root : Component) (sheet : Stylesheet) (config : Configuration) :
    unusedStyleRules root sheet config
      = (sheet.rules.filter (IsUnused root)).map (unusedReport sheet) := by
  have unused : ∀ r ∈ sheet.rules, (!(root.walk.map (·.className)).contains r.className)
      = decide (IsUnused root r) := by
    intro r _
    rw [Bool.eq_iff_iff, Bool.not_eq_true', ← Bool.not_eq_true, contains_className_iff,
      Decidable.not_not, decide_eq_true_eq]
  rw [unusedStyleRules, List.filter_congr unused]
  rfl

/-- No component notices that unused rules are gone. -/
theorem Pruned.declarations_eq {rules left : List StyleRule} (h : Pruned root rules left)
    (name : String) {c : Component} (hc : c ∈ root.walk) :
    (⟨rules, name⟩ : Stylesheet).declarations c.className
      = (⟨left, name⟩ : Stylesheet).declarations c.className := by
  induction h with
  | nil => rfl
  | keep _ ih => rw [Cascade.declarations_cons, Cascade.declarations_cons, ih]
  | @drop r _ _ unused _ ih =>
      have other : r.className ≠ c.className := (unused c hc).symm
      rw [Cascade.declarations_cons, if_neg other, ih]
      rfl

theorem exists_matching_of_not_isUnused {sheet : Stylesheet} {r : StyleRule}
    (hr : r ∈ sheet.rules) (used : ¬IsUnused root r) :
    ∃ c ∈ root.walk, r ∈ sheet.matching c.className := by
  obtain ⟨c, hc, same⟩ : ∃ c ∈ root.walk, c.className = r.className := by
    simpa [IsUnused] using used
  exact ⟨c, hc, List.mem_filter.2 ⟨hr, beq_iff_eq.2 same.symm⟩⟩

/-- The rules that are reported are those that match no component. Without any of them the tree is
resolved as before, and each rule that is not reported matches a component. -/
theorem unusedStyleRules_removable (root : Component) (sheet : Stylesheet)
    (config : Configuration) :
    unusedStyleRules root sheet config
        = (sheet.rules.filter (IsUnused root)).map (unusedReport sheet)
      ∧ (∀ left, Pruned root sheet.rules left → Cascade.Alike root sheet ⟨left, sheet.name⟩)
      ∧ ∀ r ∈ sheet.rules, ¬IsUnused root r → ∃ c ∈ root.walk, r ∈ sheet.matching c.className :=
  ⟨unusedStyleRules_eq root sheet config,
    fun _ pruned => Cascade.alike_of_declarations rfl fun _ hc =>
      pruned.declarations_eq sheet.name hc,
    fun _ hr used => exists_matching_of_not_isUnused hr used⟩

/-- Two unused rules around one that is in use, the first of which is deleted. -/
theorem unusedStyleRules_removable_first :
    let root : Component := .node "a" 1 [] [.node "b" 2 [] []]
    let used : StyleRule := ⟨"b", [⟨"k", .default, some "x", 2⟩], 2⟩
    let sheet : Stylesheet := ⟨[⟨"c", [⟨"k", .default, some "y", 1⟩], 1⟩, used, ⟨"d", [], 3⟩], "s"⟩
    (unusedStyleRules root sheet {}).map (·.line) = [some 1, some 3]
      ∧ Cascade.Alike root sheet ⟨[used, ⟨"d", [], 3⟩], "s"⟩
      ∧ ∃ c ∈ root.walk, used ∈ sheet.matching c.className := by
  intro root used sheet
  obtain ⟨reported, removable, matched⟩ := unusedStyleRules_removable root sheet {}
  have unused (className : String) (h : className ∉ root.walk.map (·.className))
      (attributes : List Attribute) (line : Int) : IsUnused root ⟨className, attributes, line⟩ := by
    intro c hc same
    exact h (List.mem_map.2 ⟨c, hc, same⟩)
  refine ⟨?_, removable _ (.drop (unused "c" (by decide) _ _) (.keep (.keep .nil))), ?_⟩
  · rw [reported]
    decide
  · exact matched used (by simp [sheet]) (by decide)

end MarkupCascade.Validation
