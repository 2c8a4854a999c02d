import MarkupCascade.Proofs.Consultation

/-!
What of a stylesheet matters. A component is told nothing of the rules but what they declare for its
class, in their order and each attribute with the line it is reported at. So two sheets that declare
the same for every class cannot be told apart, in whatever way their rules are grouped.
-/

namespace MarkupCascade

/-- The attributes of a rule, each with the line it is reported at. -/
def StyleRule.declarations (r : StyleRule) : List Attribute :=
  r.attributes.map fun a => { a with line := a.lineOr r.line }

/-- What the rules of a class declare, in the order of the rules. -/
def Stylesheet.declarations (sheet : Stylesheet) (className : String) : List Attribute :=
  (sheet.matching className).flatMap (·.declarations)

namespace Cascade

/-- To resolve a tree with one sheet and with the other is the same computation, whatever else an
evaluator does with what it is asked: fail, remember it or write it down. And it is asked the
same. -/
structure Alike (root : Component) (sheet sheet' : Stylesheet) : Prop where
  resolve : ∀ (m : Type → Type) [Monad m] (ask : String → m Bool),
    resolve ask sheet root = resolve ask sheet' root
  asked : asked sheet root = asked sheet' root

theorem candidates_eq_declarations (sheet : Stylesheet) (className : String) (line : Int)
    (attributes : List Attribute) :
    candidates sheet className line attributes
      = (sheet.declarations className).map (fun a => .of a ⟨.style, a.line, sheet.name⟩)
        ++ ofComponent line attributes := by
  simp only [candidates, Stylesheet.declarations, StyleRule.declarations, List.map_flatMap,
    List.map_map]
  rfl

variable {sheet sheet' : Stylesheet}

section Computation

variable {m : Type → Type} [Monad m]

theorem resolveAttributes_eq_of_candidates (ask : String → m Bool) {className : String} {line : Int}
    {attributes : List Attribute}
    (same : candidates sheet className line attributes
      = candidates sheet' className line attributes) :
    resolveAttributes ask sheet className line attributes
      = resolveAttributes ask sheet' className line attributes := by
  rw [resolveAttributes, resolveAttributes, same]

theorem resolveAll_eq_of_forall (ask : String → m Bool) (cs : List Component)
    (each : ∀ c ∈ cs, resolve ask sheet c = resolve ask sheet' c) :
    resolveAll ask sheet cs = resolveAll ask sheet' cs := by
  induction cs with
  | nil => rfl
  | cons c cs ih =>
      obtain ⟨first, others⟩ := List.forall_mem_cons.1 each
      rw [resolveAll, resolveAll, first, ih others]

/-- A sheet acts on a tree through the candidates of its components alone. -/
theorem resolve_eq_of_candidates (ask : String → m Bool) (root : Component)
    (same : ∀ c ∈ root.walk, candidates sheet c.className c.line c.attributes
      = candidates sheet' c.className c.line c.attributes) :
    resolve ask sheet root = resolve ask sheet' root := by
  induction root using Component.induction with
  | node className line attributes children ih =>
      rw [Component.walk_node] at same
      obtain ⟨here, below⟩ := List.forall_mem_cons.1 same
      have own := resolveAttributes_eq_of_candidates ask here
      have others := resolveAll_eq_of_forall ask children fun c hc =>
        ih c hc fun d hd => below d (List.mem_flatMap.2 ⟨c, hc, hd⟩)
      simp only [Component.className, Component.line, Component.attributes] at own
      rw [resolve, resolve, own, others]

end Computation

/-- Only what is declared for the classes of its components matters to a tree. -/
theorem alike_of_declarations {root : Component} (name : sheet.name = sheet'.name)
    (same : ∀ c ∈ root.walk, sheet.declarations c.className = sheet'.declarations c.className) :
    Alike root sheet sheet' := by
  have candidate : ∀ c ∈ root.walk, candidates sheet c.className c.line c.attributes
      = candidates sheet' c.className c.line c.attributes := by
    intro c hc
    rw [candidates_eq_declarations, candidates_eq_declarations, same c hc, name]
  refine ⟨fun m _ ask => resolve_eq_of_candidates ask root candidate, ?_⟩
  refine List.flatMap_congr fun c hc => ?_
  rw [← filterMap_condition_candidates sheet c.className c.line, candidate c hc,
    filterMap_condition_candidates]

/-- Rules that are grouped in another way. Neighbours of different classes may change places, and
two neighbours of one class may be put together, or one be split in two, as long as the attributes
keep their order and the lines they are reported at. -/
inductive Regrouped : List StyleRule → List StyleRule → Prop
  | refl {rules : List StyleRule} : Regrouped rules rules
  | swap {r s : StyleRule} {rules : List StyleRule} :
      r.className ≠ s.className → Regrouped (r :: s :: rules) (s :: r :: rules)
  | merge {r s whole : StyleRule} {rules : List StyleRule} :
      r.className = whole.className → s.className = whole.className →
      whole.declarations = r.declarations ++ s.declarations →
      Regrouped (r :: s :: rules) (whole :: rules)
  | cons {r : StyleRule} {rules rules' : List StyleRule} :
      Regrouped rules rules' → Regrouped (r :: rules) (r :: rules')
  | symm {rules rules' : List StyleRule} : Regrouped rules rules' → Regrouped rules' rules
  | trans {rules rules' rules'' : List StyleRule} :
      Regrouped rules rules' → Regrouped rules' rules'' → Regrouped rules rules''

theorem declarations_cons (r : StyleRule) (rules : List StyleRule) (name className : String) :
    (⟨r :: rules, name⟩ : Stylesheet).declarations className
      = (if r.className = className then r.declarations else [])
        ++ (⟨rules, name⟩ : Stylesheet).declarations className := by
  simp only [Stylesheet.declarations, Stylesheet.matching, List.filter_cons, beq_iff_eq]
  split <;> rfl

theorem Regrouped.declarations_eq {rules rules' : List StyleRule} (h : Regrouped rules rules')
    (name name' className : String) :
    (⟨rules, name⟩ : Stylesheet).declarations className
      = (⟨rules', name'⟩ : Stylesheet).declarations className := by
  induction h generalizing name name' with
  | refl => rfl
  | @swap r s rules different =>
      simp only [declarations_cons _ _ _ className]
      by_cases first : r.className = className
      · have second : s.className ≠ className := fun same => different (first.trans same.symm)
        rw [if_neg second]
        rfl
      · rw [if_neg first]
        rfl
  | @merge r s whole rules first second same =>
      simp only [declarations_cons _ _ _ className, first, second]
      split
      · rw [same, List.append_assoc]
        rfl
      · rfl
  | cons _ ih => rw [declarations_cons, declarations_cons, ih name name']
  | symm _ ih => exact (ih name' name).symm
  | trans _ _ ih ih' => exact (ih name name).trans (ih' name name')

/-- Sheets that declare the same for every class lead to the same in every tree and under every
evaluator, and so do sheets whose rules are grouped in another way. -/
theorem alike_of_same_declarations (sheet sheet' : Stylesheet) (name : sheet.name = sheet'.name) :
    ((∀ className, sheet.declarations className = sheet'.declarations className) →
        ∀ root, Alike root sheet sheet')
      ∧ (Regrouped sheet.rules sheet'.rules → ∀ root, Alike root sheet sheet') :=
  ⟨fun same _ => alike_of_declarations name fun c _ => same c.className,
    fun regrouped _ => alike_of_declarations name fun c _ =>
      regrouped.declarations_eq _ _ c.className⟩

/-- A rule that is split in two, and another that changes places with it. An attribute without a
line of its own keeps that of the rule. -/
theorem alike_of_same_declarations_split :
    let a : Attribute := ⟨"k", .integer 1, some "x", 0⟩
    let b : Attribute := ⟨"j", .integer 2, none, 5⟩
    let other : StyleRule := ⟨"c", [⟨"k", .default, none, 6⟩], 6⟩
    let sheet : Stylesheet := ⟨[⟨"a", [a, b], 4⟩, other], "s"⟩
    let sheet' : Stylesheet := ⟨[other, ⟨"a", [a], 4⟩, ⟨"a", [b], 5⟩], "s"⟩
    Regrouped sheet.rules sheet'.rules
      ∧ (∀ className, sheet.declarations className = sheet'.declarations className)
      ∧ ∀ root, Alike root sheet sheet' := by
  intro a b other sheet sheet'
  have different : "a" ≠ "c" := by decide
  have split : Regrouped sheet.rules [⟨"a", [a], 4⟩, ⟨"a", [b], 5⟩, other] :=
    .symm (.merge rfl rfl rfl)
  have regrouped : Regrouped sheet.rules sheet'.rules :=
    split.trans (.trans (.cons (.swap different)) (.swap different))
  have same (className : String) := regrouped.declarations_eq sheet.name sheet'.name className
  exact ⟨regrouped, same, (alike_of_same_declarations sheet sheet' rfl).1 same⟩

end Cascade

end MarkupCascade
