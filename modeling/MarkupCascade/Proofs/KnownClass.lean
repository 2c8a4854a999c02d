import Mathlib
import MarkupCascade.Proofs.Consultation
import MarkupCascade.Registry
import MarkupCascade.Validation

/-!
Classes that are not known. A component keeps its class and its line when it is resolved, whatever
the evaluator does. So where the known classes are those of a registry, validation reports the
components for which the registry has nothing to build afterwards, and no others.
-/

namespace MarkupCascade

namespace Registry

variable {α : Type}

/-- Why nothing is built from attributes, if nothing is. -/
def refusal? (r : Registry α) (attributes : ResolvedAttributes) : Option UnknownClassError :=
  match r.create attributes with
  | .error e => some e
  | .ok _ => none

theorem refusal?_eq_none_iff {r : Registry α} {attributes : ResolvedAttributes} :
    r.refusal? attributes = none ↔ ∃ built, r.create attributes = .ok built := by
  rw [refusal?]
  cases r.create attributes <;> simp

/-- Nothing is built for the classes that have no factory. -/
theorem refusal?_eq (r : Registry α) (attributes : ResolvedAttributes) :
    r.refusal? attributes
      = if attributes.className ∈ r.keys then none
        else some ⟨attributes.className, some attributes.line⟩ := by
  have absent := r.get?_eq_none_iff attributes.className
  rw [refusal?, create]
  cases found : r.get? attributes.className with
  | none => rw [if_neg (absent.1 found)]
  | some factory =>
      have known : attributes.className ∈ r.keys := by
        by_contra unknown
        rw [absent.2 unknown] at found
        cases found
      rw [if_pos known]

end Registry

namespace ResolvedComponent

mutual

theorem map_snd_outline (depth : Nat) :
    ∀ c : ResolvedComponent, (c.outline depth).map (·.2) = c.walk
  | .node as children => by
      rw [outline, walk, List.map_cons, map_snd_outlineAll (depth + 1) children]

theorem map_snd_outlineAll (depth : Nat) :
    ∀ cs : List ResolvedComponent, (outlineAll depth cs).map (·.2) = walkAll cs
  | [] => rfl
  | c :: cs => by
      rw [outlineAll, walkAll, List.map_append, map_snd_outline depth c,
        map_snd_outlineAll depth cs]

end

end ResolvedComponent

namespace Cascade

variable {ε σ : Type} {ask : String → EStateM ε σ Bool} {sheet : Stylesheet}

theorem exists_of_run_bind {β γ : Type} {x : EStateM ε σ β} {f : β → EStateM ε σ γ} {c : γ}
    {s s' : σ} (h : (x >>= f).run s = .ok c s') :
    ∃ b t, x.run s = .ok b t ∧ (f b).run t = .ok c s' := by
  rw [EStateM.run_bind] at h
  cases first : x.run s with
  | error fault t => simp [first] at h
  | ok b t => exact ⟨b, t, rfl, by simpa only [first] using h⟩

theorem exists_of_run_map {β γ : Type} {x : EStateM ε σ β} {f : β → γ} {c : γ} {s s' : σ}
    (h : (f <$> x).run s = .ok c s') : ∃ b, x.run s = .ok b s' ∧ f b = c := by
  rw [map_eq_pure_bind] at h
  obtain ⟨b, t, ran, last⟩ := exists_of_run_bind h
  cases last
  exact ⟨b, ran, rfl⟩

theorem forall₂_of_run_mapM {β γ : Type} {f : β → EStateM ε σ γ} {bs : List β} {cs : List γ}
    {s s' : σ} (h : (bs.mapM f).run s = .ok cs s') :
    List.Forall₂ (fun b c => ∃ t t', (f b).run t = .ok c t') bs cs := by
  induction bs generalizing cs s with
  | nil =>
      cases h
      exact .nil
  | cons b bs ih =>
      rw [List.mapM_cons] at h
      obtain ⟨c, t, first, h⟩ := exists_of_run_bind h
      obtain ⟨others, t', rest, last⟩ := exists_of_run_bind h
      cases last
      exact .cons ⟨s, t, first⟩ (ih rest)

/-- The attributes are what a component is resolved to, in some state of the evaluator. -/
structure SettledAs (ask : String → EStateM ε σ Bool) (sheet : Stylesheet) (c : Component)
    (attributes : ResolvedAttributes) : Prop where
  resolved : ∃ s s',
    (resolveAttributes ask sheet c.className c.line c.attributes).run s = .ok attributes s'
  className : attributes.className = c.className
  line : attributes.line = c.line

theorem settledAs_of_run {c : Component} {attributes : ResolvedAttributes} {s s' : σ}
    (h : (resolveAttributes ask sheet c.className c.line c.attributes).run s
      = .ok attributes s') : SettledAs ask sheet c attributes := by
  have kept := h
  rw [resolveAttributes] at kept
  obtain ⟨winners, t, _, last⟩ := exists_of_run_bind kept
  cases last
  exact ⟨⟨s, s', h⟩, rfl, rfl⟩

/-- A tree is resolved component by component in document order. -/
theorem forall₂_settledAs {root : Component} {resolved : ResolvedComponent} {s s' : σ}
    (h : (resolve ask sheet root).run s = .ok resolved s') :
    List.Forall₂ (SettledAs ask sheet) root.walk resolved.walk := by
  have outlined : ((root.outline 0).mapM (resolveAt ask sheet)).run s
      = .ok (resolved.outline 0) s' := by
    rw [← outline_resolve, map_eq_pure_bind, EStateM.run_bind, h]
    rfl
  rw [← Component.map_snd_outline root 0, ← ResolvedComponent.map_snd_outline 0 resolved,
    List.forall₂_map_left_iff, List.forall₂_map_right_iff]
  refine (forall₂_of_run_mapM outlined).imp fun t r given => ?_
  obtain ⟨u, u', ran⟩ := given
  obtain ⟨attributes, settled, rfl⟩ := exists_of_run_map ran
  exact settledAs_of_run settled

end Cascade

namespace Validation

/-- What is reported of a component for which nothing can be built. -/
def unknownReport (config : Configuration) (e : UnknownClassError) : Diagnostic :=
  let known := ", ".intercalate (sortedDistinct config.knownClasses)
  { rule := "check_known_classes"
    severity := .warning
    message := s!"Unknown component class '{e.className}'."
    line := e.line
    fix := some s!"Use one of: {known}." }

/-- The components of a class without a factory are those that nothing is built for. -/
theorem knownClasses_eq_of_forall₂ {α ε σ : Type} {r : Registry α} (registered : r.keys ≠ [])
    {config : Configuration} (names : ∀ name, name ∈ config.knownClasses ↔ name ∈ r.keys)
    {ask : String → EStateM ε σ Bool} {sheet : Stylesheet} {root : Component}
    {resolved : ResolvedComponent}
    (settled : List.Forall₂ (Cascade.SettledAs ask sheet) root.walk resolved.walk) :
    knownClasses root sheet config
      = (resolved.walk.filterMap r.refusal?).map (unknownReport config) := by
  have nonempty : config.knownClasses.isEmpty = false := by
    obtain ⟨name, others, keys⟩ := List.exists_cons_of_ne_nil registered
    have known : name ∈ config.knownClasses := (names name).2 (by simp [keys])
    cases list : config.knownClasses with
    | nil => simp [list] at known
    | cons _ _ => rfl
  rw [knownClasses, nonempty, if_neg (by decide)]
  dsimp only
  generalize root.walk = components, resolved.walk = results at settled ⊢
  induction settled with
  | nil => rfl
  | @cons c a cs as here _ ih =>
      rw [List.filterMap_cons, r.refusal?_eq a, here.className, here.line]
      by_cases known : c.className ∈ r.keys
      · have listed := (names c.className).2 known
        rw [if_pos known, List.filter_cons_of_neg (by simpa using listed), ih]
      · have unlisted := (names c.className).not.2 known
        rw [if_neg known, List.filter_cons_of_pos (by simpa using unlisted), List.map_cons, ih]
        rfl

/-- Let the known classes be those of a registry, and let a tree be resolved under an evaluator of
any kind. Its components and their settings stand in the same order, and for each component for
which the registry refuses to build from its settings, and for no other, validation reports a
warning, with the class and line of the refusal. So it reports none exactly if everything can be
built. -/
theorem knownClasses_predicts {α ε σ : Type} (r : Registry α) (registered : r.keys ≠ [])
    (config : Configuration) (names : ∀ name, name ∈ config.knownClasses ↔ name ∈ r.keys)
    (root : Component) (sheet : Stylesheet) (ask : String → EStateM ε σ Bool) (s s' : σ)
    (resolved : ResolvedComponent)
    (h : (Cascade.resolve ask sheet root).run s = .ok resolved s') :
    List.Forall₂ (Cascade.SettledAs ask sheet) root.walk resolved.walk
      ∧ knownClasses root sheet config
        = (resolved.walk.filterMap r.refusal?).map (unknownReport config)
      ∧ (knownClasses root sheet config = []
        ↔ ∀ attributes ∈ resolved.walk, ∃ built, r.create attributes = .ok built) := by
  have settled := Cascade.forall₂_settledAs h
  have reported := knownClasses_eq_of_forall₂ registered names settled
  refine ⟨settled, reported, ?_⟩
  rw [reported, List.map_eq_nil_iff, List.filterMap_eq_nil_iff]
  exact forall₂_congr fun attributes _ => Registry.refusal?_eq_none_iff

/-- A registry in which the factory of a class was replaced, and an evaluator that counts its
questions: of three components two have a class without a factory. -/
theorem knownClasses_predicts_replaced :
    let r : Registry Nat := (Registry.register ∅ "a" fun _ => 1).register "a" fun _ => 2
    let config : Configuration := { knownClasses := sortedDistinct r.keys }
    let ask (_ : String) : EStateM String Nat Bool := fun n => .ok (n % 2 == 0) (n + 1)
    let root : Component := .node "a" 1 [⟨"k", .default, some "x", 1⟩]
      [.node "b" 2 [] [.node "a" 3 [⟨"k", .default, some "y", 3⟩] []], .node "b" 4 [] []]
    ∃ resolved, (Cascade.resolve ask {} root).run 0 = .ok resolved 2
      ∧ (knownClasses root {} config).map (·.line) = [some 2, some 4]
      ∧ resolved.walk.filterMap r.refusal? = [⟨"b", some 2⟩, ⟨"b", some 4⟩]
      ∧ ¬∀ attributes ∈ resolved.walk, ∃ built, r.create attributes = .ok built := by
  intro r config ask root
  have keys : r.keys = ["a"] := rfl
  have names : ∀ name, name ∈ config.knownClasses ↔ name ∈ r.keys := by
    intro name
    have known : config.knownClasses = ["a"] := by cbv
    rw [known, keys]
  obtain ⟨_, reported, none_iff⟩ :=
    knownClasses_predicts r (by rw [keys]; decide) config names root {} ask 0 2 _ rfl
  refine ⟨_, rfl, ?_, rfl, ?_⟩
  · rw [reported]
    rfl
  · rw [← none_iff, reported]
    rintro ⟨⟩

end Validation

end MarkupCascade
