import Mathlib
import MarkupCascade.Proofs.KnownClass
import MarkupCascade.Proofs.TypedRead

/-!
A component read without resolving it. Its last attribute of a key that has no condition gives the
value that the cascade settles where there are no rules and no condition holds; and where the last
attribute of the key has no condition, neither a rule nor the answer to any condition can put
another value in its place.
-/

namespace MarkupCascade

namespace Component

/-- The last of the attributes of a component that have a property. -/
def IsLast (c : Component) (P : Attribute → Prop) (a : Attribute) : Prop :=
  P a ∧ ∃ before after, c.attributes = before ++ a :: after ∧ ∀ b ∈ after, ¬P b

theorem isLast_iff {c : Component} {P : Attribute → Prop} [DecidablePred P] {a : Attribute} :
    c.IsLast P a ↔ c.attributes.reverse.find? (P ·) = some a := by
  simp only [IsLast, Cascade.find?_reverse_eq_some_iff, decide_eq_true_eq, decide_eq_false_iff_not]

/-- Among the attributes of a key those that count for a static read. -/
abbrev IsPlain (key : String) (a : Attribute) : Prop := a.key = key ∧ a.condition = none

theorem get?_eq_find? (c : Component) (key : String) :
    c.get? key = (c.attributes.reverse.find? (IsPlain key ·)).map (·.value) := by
  have same (a : Attribute) : (a.key == key && a.condition.isNone) = decide (IsPlain key a) := by
    rw [Bool.decide_and]
    cases a.condition <;> rfl
  rw [get?, funext same]

theorem get?_eq_some_iff {c : Component} {key : String} {v : Value} :
    c.get? key = some v ↔ ∃ a, c.IsLast (IsPlain key) a ∧ a.value = v := by
  simp only [get?_eq_find?, Option.map_eq_some_iff, isLast_iff]

theorem IsLast.unique {c : Component} {P : Attribute → Prop} {a b : Attribute}
    (h : c.IsLast P a) (h' : c.IsLast P b) : a = b := by
  classical
  exact Option.some.inj ((isLast_iff.1 h).symm.trans (isLast_iff.1 h'))

theorem IsLast.plain {c : Component} {key : String} {a : Attribute}
    (h : c.IsLast (·.key = key) a) (plain : a.condition = none) : c.IsLast (IsPlain key) a := by
  obtain ⟨named, before, after, whole, others⟩ := h
  exact ⟨⟨named, plain⟩, before, after, whole, fun b inside same => others b inside same.1⟩

end Component

namespace Cascade

/-- Where an attribute of a component itself is declared. -/
def ownOrigin (c : Component) (a : Attribute) : Origin :=
  ⟨.template, if a.line = 0 then c.line else a.line, "template"⟩

/-- The attributes of a component itself, each with its origin. -/
def own (c : Component) : List (Attribute × Origin) := c.attributes.map fun a => (a, ownOrigin c a)

theorem own_append_cons {c : Component} {before after : List Attribute} {a : Attribute}
    (whole : c.attributes = before ++ a :: after) :
    own c = before.map (fun b => (b, ownOrigin c b))
      ++ (a, ownOrigin c a) :: after.map fun b => (b, ownOrigin c b) := by
  rw [own, whole, List.map_append, List.map_cons]

/-- Of the attributes of a component itself that have no condition, the one in force is the one that
a static read finds. -/
theorem inForce?_own (c : Component) (key : String) :
    inForce? key ((own c).filter (·.1.condition.isNone))
      = (c.attributes.reverse.find? (Component.IsPlain key ·)).map fun a => (a, ownOrigin c a) := by
  rw [inForce?, own, ← List.filter_reverse, ← List.map_reverse, List.find?_filter, List.find?_map]
  have same (a : Attribute) : decide (a.condition.isNone = true ∧ (a.key == key) = true)
      = decide (Component.IsPlain key a) := by
    refine decide_eq_decide.2 (and_comm.trans (and_congr beq_iff_eq ?_))
    exact Option.isNone_iff_eq_none
  exact congrArg _ (congrArg (List.find? · _) (funext same))

/-! What the answers to some declarations leave in force. -/

theorem applied_cons (d : Attribute × Origin) (ds : List (Attribute × Origin)) (b : Bool)
    (answers : List Bool) :
    applied (d :: ds) (b :: answers) = if b then d :: applied ds answers else applied ds answers := by
  cases b <;> rfl

theorem mem_of_mem_applied {d : Attribute × Origin} {ds : List (Attribute × Origin)}
    {answers : List Bool} (h : d ∈ applied ds answers) : d ∈ ds := by
  obtain ⟨⟨_, b⟩, inside, rfl⟩ := List.mem_map.1 h
  exact (List.of_mem_zip (List.mem_filter.1 inside).1).1

theorem applied_eq_filter {p : Attribute × Origin → Bool} {ds : List (Attribute × Origin)}
    {answers : List Bool} (h : List.Forall₂ (fun d b => b = p d) ds answers) :
    applied ds answers = ds.filter p := by
  induction h with
  | nil => rfl
  | @cons d b ds answers here _ ih => rw [applied_cons, ih, List.filter_cons, here]

/-- A declaration that applies stays where it is, and what is behind it was behind it. -/
theorem applied_append_cons {R : Attribute × Origin → Bool → Prop} {d : Attribute × Origin}
    (holds : ∀ b, R d b → b = true) {before after : List (Attribute × Origin)}
    {answers : List Bool} (h : List.Forall₂ R (before ++ d :: after) answers) :
    ∃ ds ds', applied (before ++ d :: after) answers = ds ++ d :: ds' ∧ ∀ e ∈ ds', e ∈ after := by
  induction before generalizing answers with
  | nil =>
      obtain ⟨b, answers, here, _, rfl⟩ := List.forall₂_cons_left_iff.1 h
      rw [List.nil_append, applied_cons, if_pos (holds b here)]
      exact ⟨[], _, rfl, fun e => mem_of_mem_applied⟩
  | cons e before ih =>
      obtain ⟨b, answers, _, others, rfl⟩ := List.forall₂_cons_left_iff.1 h
      obtain ⟨ds, ds', found, behind⟩ := ih others
      rw [List.cons_append, applied_cons, found]
      split
      · exact ⟨e :: ds, ds', rfl, behind⟩
      · exact ⟨ds, ds', rfl, behind⟩

/-- The settings of a component are those of its declarations that apply, for some answers each of
which is related to its declaration. -/
def SettledBy (R : Attribute × Origin → Bool → Prop) (sheet : Stylesheet) (c : Component)
    (r : ResolvedAttributes) : Prop :=
  ∃ answers, List.Forall₂ R (declared sheet c.className c.line c.attributes) answers
    ∧ r = settled c.className c.line
      (applied (declared sheet c.className c.line c.attributes) answers)

theorem SettledBy.imp {R R' : Attribute × Origin → Bool → Prop} {sheet : Stylesheet} {c : Component}
    {r : ResolvedAttributes} (settles : SettledBy R sheet c r) (h : ∀ d b, R d b → R' d b) :
    SettledBy R' sheet c r := by
  obtain ⟨answers, related, settled⟩ := settles
  exact ⟨answers, related.imp h, settled⟩

/-- A component whose settings can be read off its own attributes. -/
structure StaticallySettled (c : Component) (r : ResolvedAttributes) : Prop where
  owner : r.className = c.className ∧ r.line = c.line
  present : ∀ key, r.settings.contains key = true ↔ c.get? key ≠ none
  value : ∀ key v, c.get? key = some v →
    ∃ a, c.IsLast (Component.IsPlain key) a ∧ a.value = v
      ∧ r.settings.get? key
        = some ⟨v, .template, if a.line = 0 then c.line else a.line, "template"⟩

theorem SettledBy.static {name : String} {c : Component} {r : ResolvedAttributes}
    (h : SettledBy (fun d b => b = d.1.condition.isNone) ⟨[], name⟩ c r) :
    StaticallySettled c r := by
  obtain ⟨answers, related, rfl⟩ := h
  have declares : declared ⟨[], name⟩ c.className c.line c.attributes = own c := rfl
  rw [applied_eq_filter related, declares]
  have found (key : String) := (get?_settled c.className c.line _ key).trans
    (congrArg _ (inForce?_own c key))
  refine ⟨⟨rfl, rfl⟩, fun key => ?_, fun key v read => ?_⟩
  · rw [Table.contains, found, Component.get?_eq_find?, ← Option.isSome_iff_ne_none,
      Option.isSome_map, Option.isSome_map, Option.isSome_map]
  · obtain ⟨a, last, rfl⟩ := Component.get?_eq_some_iff.1 read
    refine ⟨a, last, rfl, ?_⟩
    rw [found, Component.isLast_iff.1 last]
    rfl

/-- What a component declares last under a key, without a condition, is in force. -/
theorem SettledBy.inForce {sheet : Stylesheet} {c : Component} {r : ResolvedAttributes}
    (h : SettledBy (fun d b => d.1.condition = none → b = true) sheet c r) {key : String}
    {a : Attribute} (last : c.IsLast (·.key = key) a) (plain : a.condition = none) :
    r.settings.get? key = some ⟨a.value, ownOrigin c a⟩ := by
  obtain ⟨answers, related, rfl⟩ := h
  obtain ⟨named, before, after, whole, others⟩ := last
  obtain ⟨rules, declares⟩ : ∃ rules, declared sheet c.className c.line c.attributes
      = rules ++ own c := ⟨_, rfl⟩
  rw [own_append_cons whole, ← List.append_assoc] at declares
  rw [declares] at related ⊢
  obtain ⟨ds, ds', found, behind⟩ := applied_append_cons (fun b holds => holds plain) related
  have decides : inForce? key (ds ++ (a, ownOrigin c a) :: ds') = some (a, ownOrigin c a) := by
    refine inForce?_eq_some_iff.2 ⟨named, ds, ds', rfl, fun e inside => ?_⟩
    obtain ⟨b, later, rfl⟩ := List.mem_map.1 (behind e inside)
    exact others b later
  rw [found, get?_settled, decides]
  rfl

section Stateful

variable {ε σ : Type} {ask : String → EStateM ε σ Bool}

/-- In some state the answer for a declaration is this one. -/
def Answers (ask : String → EStateM ε σ Bool) (d : Attribute × Origin) (b : Bool) : Prop :=
  ∃ s s', (verdict ask d).run s = .ok b s'

theorem Answers.of_plain {d : Attribute × Origin} {b : Bool} (h : Answers ask d b)
    (plain : d.1.condition = none) : b = true := by
  obtain ⟨s, s', answer⟩ := h
  rw [verdict, plain] at answer
  cases answer
  rfl

theorem Answers.of_never {d : Attribute × Origin} {b : Bool} (h : Answers ask d b)
    (never : ∀ expression s, ∃ s', (ask expression).run s = .ok false s') :
    b = d.1.condition.isNone := by
  cases condition : d.1.condition with
  | none => exact h.of_plain condition
  | some expression =>
      obtain ⟨s, s', answer⟩ := h
      obtain ⟨s'', refused⟩ := never expression s
      rw [verdict, condition] at answer
      cases refused.symm.trans answer
      rfl

theorem SettledAs.settledBy {sheet : Stylesheet} {c : Component} {r : ResolvedAttributes}
    (h : SettledAs ask sheet c r) : SettledBy (Answers ask) sheet c r := by
  obtain ⟨s, s', settles⟩ := h.resolved
  rw [resolveAttributes_eq] at settles
  obtain ⟨answers, t, answered, last⟩ := exists_of_run_bind settles
  cases last
  exact ⟨answers, forall₂_of_run_mapM answered, rfl⟩

/-- An evaluator that never fails answers any questions. -/
theorem exists_answered
    (answers : ∀ expression s, ∃ answer s', (ask expression).run s = .ok answer s')
    (questions : List String) (s : σ) : ∃ s', Answered ask s questions s' := by
  induction questions generalizing s with
  | nil => exact ⟨s, .nil⟩
  | cons expression questions ih =>
      obtain ⟨answer, s', here⟩ := answers expression s
      obtain ⟨s'', rest⟩ := ih s'
      exact ⟨s'', .cons here rest⟩

theorem exists_resolve {sheet : Stylesheet} {root : Component} {s s' : σ}
    (answered : Answered ask s (asked sheet root) s') :
    ∃ r, (resolve ask sheet root).run s = .ok r s'
      ∧ List.Forall₂ (SettledBy (Answers ask) sheet) root.walk r.walk := by
  have follows : Follows ask (asked sheet root) _ _ :=
    (inStep_recorded ask).holds_resolve sheet root
  obtain ⟨r, returned, _⟩ := follows.answered s s' [] answered
  exact ⟨r, returned, (forall₂_settledAs returned).imp fun _ _ settles => settles.settledBy⟩

end Stateful

/-- Reading a component statically agrees with the cascade. Under an evaluator that always answers
`false` and a stylesheet without rules, every component of a tree has the settings that can be read
off it. Under any stylesheet, if the evaluator answers what it is asked, a key whose last attribute
in a component has no condition has there the value that is read off it. -/
theorem resolve_static {ε σ : Type} (root : Component) :
    (∀ (ask : String → EStateM ε σ Bool) (name : String),
        (∀ expression s, ∃ s', (ask expression).run s = .ok false s') →
        ∀ s, ∃ r s', (resolve ask ⟨[], name⟩ root).run s = .ok r s'
          ∧ List.Forall₂ StaticallySettled root.walk r.walk)
      ∧ ∀ (ask : String → EStateM ε σ Bool) (sheet : Stylesheet) (s s' : σ),
        Answered ask s (asked sheet root) s' →
        ∃ r, (resolve ask sheet root).run s = .ok r s'
          ∧ List.Forall₂ (fun c attributes => ∀ key a, c.IsLast (·.key = key) a →
              a.condition = none →
              (attributes.settings.get? key).map (·.value) = c.get? key
                ∧ c.get? key = some a.value)
            root.walk r.walk := by
  constructor
  · intro ask name never s
    have answers (expression : String) (s : σ) : ∃ b s', (ask expression).run s = .ok b s' :=
      ⟨false, never expression s⟩
    obtain ⟨s', answered⟩ := exists_answered answers (asked ⟨[], name⟩ root) s
    obtain ⟨r, returned, components⟩ := exists_resolve answered
    refine ⟨r, s', returned, components.imp fun c attributes settles => ?_⟩
    exact (settles.imp fun d b answers => answers.of_never never).static
  · intro ask sheet s s' answered
    obtain ⟨r, returned, components⟩ := exists_resolve answered
    refine ⟨r, returned, components.imp fun c attributes settles key a last plain => ?_⟩
    have read := Component.get?_eq_some_iff.2 ⟨a, last.plain plain, rfl⟩
    have holds := (settles.imp fun d b answers => answers.of_plain).inForce last plain
    rw [holds, read]
    exact ⟨rfl, rfl⟩

/-- Keys that are declared twice, with and without a condition and a line of their own, under an
evaluator that counts its questions and never agrees, and under one that agrees to every other. -/
theorem resolve_static_repeated :
    let never (_ : String) : EStateM String Nat Bool := fun n => .ok false (n + 1)
    let ask (_ : String) : EStateM String Nat Bool := fun n => .ok (n % 2 == 0) (n + 1)
    let child : Component :=
      .node "b" 3 [⟨"k", .integer 3, none, 0⟩, ⟨"k", .integer 4, some "x", 4⟩] []
    let root : Component := .node "a" 1
      [⟨"k", .integer 1, none, 2⟩, ⟨"j", .default, some "y", 2⟩, ⟨"k", .integer 2, none, 0⟩] [child]
    let sheet : Stylesheet := ⟨[⟨"a", [⟨"k", .integer 9, some "w", 0⟩], 1⟩], "s"⟩
    (∃ r n a b, (resolve never ⟨[], "s"⟩ root).run 0 = .ok r n ∧ r.walk = [a, b]
        ∧ a.settings.contains "j" = false
        ∧ a.settings.get? "k" = some ⟨.integer 2, .template, 1, "template"⟩
        ∧ b.settings.get? "k" = some ⟨.integer 3, .template, 3, "template"⟩)
      ∧ ∃ r a b, (resolve ask sheet root).run 0 = .ok r 3 ∧ r.walk = [a, b]
        ∧ (a.settings.get? "k").map (·.value) = some (.integer 2) := by
  intro never ask child root sheet
  have walk : root.walk = [root, child] := rfl
  have rootLast : root.IsLast (·.key = "k") ⟨"k", .integer 2, none, 0⟩ :=
    ⟨rfl, [_, _], [], rfl, List.forall_mem_nil _⟩
  have childLast : child.IsLast (Component.IsPlain "k") ⟨"k", .integer 3, none, 0⟩ := by
    refine ⟨⟨rfl, rfl⟩, [], [_], rfl, List.forall_mem_singleton.2 ?_⟩
    intro plain
    cases plain.2
  obtain ⟨unasked, asks⟩ := resolve_static (ε := String) (σ := Nat) root
  constructor
  · obtain ⟨r, n, returned, components⟩ := unasked never "s" (fun _ n => ⟨n + 1, rfl⟩) 0
    rw [walk] at components
    obtain ⟨a, others, first, rest, whole⟩ := List.forall₂_cons_left_iff.1 components
    obtain ⟨b, empty, second, last, rfl⟩ := List.forall₂_cons_left_iff.1 rest
    cases last
    refine ⟨r, n, a, b, returned, whole, ?_, ?_, ?_⟩
    · rw [← Bool.not_eq_true, first.present "j", not_not]
      rfl
    · obtain ⟨x, isLast, _, setting⟩ := first.value "k" (.integer 2) rfl
      rw [setting, isLast.unique (rootLast.plain rfl)]
      rfl
    · obtain ⟨x, isLast, _, setting⟩ := second.value "k" (.integer 3) rfl
      rw [setting, isLast.unique childLast]
      rfl
  · have answered : Answered ask 0 (asked sheet root) 3 := .cons rfl (.cons rfl (.cons rfl .nil))
    obtain ⟨r, returned, components⟩ := asks ask sheet 0 3 answered
    rw [walk] at components
    obtain ⟨a, others, first, rest, whole⟩ := List.forall₂_cons_left_iff.1 components
    obtain ⟨b, empty, _, last, rfl⟩ := List.forall₂_cons_left_iff.1 rest
    cases last
    exact ⟨r, a, b, returned, whole, (first "k" _ rootLast rfl).1⟩

end Cascade

end MarkupCascade
