import MarkupCascade.Proofs.Settlement

/-!
What the evaluator is asked. The conditions that are put to it for a tree are fixed by the tree and
the stylesheet: component by component in document order, for each those of the rules of its class
and then its own. Whatever the evaluator answers, and whatever it remembers, it is asked these, each
once, until it fails; and where it fails, so does the resolution.
-/

namespace MarkupCascade

namespace Component

theorem map_snd_outline (c : Component) (depth : Nat) : (c.outline depth).map (·.2) = c.walk := by
  rw [walk]
  induction c using induction generalizing depth with
  | node className line attributes children ih =>
      have below (d : Nat) : (children.flatMap (outline d)).map (·.2) = children.flatMap walk := by
        rw [List.map_flatMap]
        exact List.flatMap_congr fun c hc => ih c hc d
      simp only [outline, outlineAll_eq_flatMap, List.map_cons, below]

theorem walk_node (className : String) (line : Int) (attributes : List Attribute)
    (children : List Component) :
    (node className line attributes children).walk
      = .node className line attributes children :: children.flatMap walk := by
  rw [walk, outline, outlineAll_eq_flatMap, List.map_cons, List.map_flatMap]
  simp only [map_snd_outline]

end Component

namespace Cascade

/-- The conditions of what is declared for a component: those of the rules of its class and then its
own. -/
def conditions (sheet : Stylesheet) (className : String) (attributes : List Attribute) :
    List String :=
  ((sheet.rules.filter fun r => r.className = className).flatMap (·.attributes)
    ++ attributes).filterMap (·.condition)

/-- The conditions of a tree, component by component in document order. -/
def asked (sheet : Stylesheet) (root : Component) : List String :=
  root.walk.flatMap fun c => conditions sheet c.className c.attributes

theorem filterMap_condition_candidates (sheet : Stylesheet) (className : String) (line : Int)
    (attributes : List Attribute) :
    (candidates sheet className line attributes).filterMap (·.condition)
      = conditions sheet className attributes := by
  simp only [candidates, conditions, Stylesheet.matching, ofRule, ofComponent,
    List.filterMap_append, List.filterMap_flatMap, List.filterMap_map]
  rfl

theorem asked_node (sheet : Stylesheet) (className : String) (line : Int)
    (attributes : List Attribute) (children : List Component) :
    asked sheet (.node className line attributes children)
      = conditions sheet className attributes ++ children.flatMap (asked sheet) := by
  rw [asked, Component.walk_node, List.flatMap_cons, List.flatMap_assoc]
  rfl

/-- A relation between the computations of two evaluators that keep in step: it holds of every
question, with what is asked, and where it holds of two computations and of what follows them it
holds of the whole, with what is asked in both. -/
structure InStep {m n : Type → Type} [Monad m] [Monad n] (ask : String → m Bool)
    (ask' : String → n Bool) where
  Holds : {α : Type} → List String → m α → n α → Prop
  question (expression : String) : Holds [expression] (ask expression) (ask' expression)
  done {α : Type} (a : α) : Holds [] (pure a) (pure a)
  next {α β : Type} {first others : List String} {x : m α} {y : n α} {f : α → m β} {g : α → n β} :
    Holds first x y → (∀ a, Holds others (f a) (g a)) → Holds (first ++ others) (x >>= f) (y >>= g)

namespace InStep

variable {m n : Type → Type} [Monad m] [Monad n] {ask : String → m Bool} {ask' : String → n Bool}

theorem last (r : InStep ask ask') {α β : Type} {first : List String} {x : m α} {y : n α}
    (h : r.Holds first x y) (f : α → β) :
    r.Holds first (x >>= fun a => pure (f a)) (y >>= fun a => pure (f a)) := by
  have whole := r.next h fun a => r.done (f a)
  rwa [List.append_nil] at whole

theorem holds_applicable (r : InStep ask ask') (cs : List Candidate) :
    r.Holds (cs.filterMap (·.condition)) (applicable ask cs) (applicable ask' cs) := by
  induction cs with
  | nil => exact r.done []
  | cons c cs ih =>
      obtain ⟨key, condition, setting⟩ := c
      have others (holds : Bool) := r.last ih fun others =>
        if holds then (⟨key, condition, setting⟩ : Candidate) :: others else others
      cases condition with
      | none => exact r.next (r.done true) others
      | some expression => exact r.next (r.question expression) others

theorem holds_resolveAttributes (r : InStep ask ask') (sheet : Stylesheet) (className : String)
    (line : Int) (attributes : List Attribute) :
    r.Holds (conditions sheet className attributes)
      (resolveAttributes ask sheet className line attributes)
      (resolveAttributes ask' sheet className line attributes) := by
  rw [← filterMap_condition_candidates sheet className line attributes]
  exact r.last (r.holds_applicable _) fun winners =>
    (⟨className, line, settle winners⟩ : ResolvedAttributes)

theorem holds_resolveAll (r : InStep ask ask') (sheet : Stylesheet) (cs : List Component)
    (each : ∀ c ∈ cs, r.Holds (asked sheet c) (resolve ask sheet c) (resolve ask' sheet c)) :
    r.Holds (cs.flatMap (asked sheet)) (resolveAll ask sheet cs) (resolveAll ask' sheet cs) := by
  induction cs with
  | nil => exact r.done []
  | cons c cs ih =>
      rw [List.flatMap_cons]
      refine r.next (each c List.mem_cons_self) fun first => ?_
      exact r.last (ih fun c' hc' => each c' (List.mem_cons_of_mem c hc')) (first :: ·)

/-- Two evaluators in step are so over a whole tree, and what they are asked are its conditions. -/
theorem holds_resolve (r : InStep ask ask') (sheet : Stylesheet) (root : Component) :
    r.Holds (asked sheet root) (resolve ask sheet root) (resolve ask' sheet root) := by
  induction root using Component.induction with
  | node className line attributes children ih =>
      rw [asked_node]
      refine r.next (r.holds_resolveAttributes sheet className line attributes) fun resolved => ?_
      exact r.last (r.holds_resolveAll sheet children ih) (ResolvedComponent.node resolved)

end InStep

/-! Evaluators that keep a state, and may fail in one. -/

section Stateful

variable {ε σ : Type} {ask : String → EStateM ε σ Bool}

/-- The evaluator answers each of some questions, and is left in a state. -/
inductive Answered (ask : String → EStateM ε σ Bool) : σ → List String → σ → Prop
  | nil {s : σ} : Answered ask s [] s
  | cons {s s' s'' : σ} {expression : String} {answer : Bool} {others : List String} :
      (ask expression).run s = .ok answer s' → Answered ask s' others s'' →
      Answered ask s (expression :: others) s''

/-- The evaluator fails at one of some questions, and is left in a state. The second list holds the
questions that were put to it, of which it failed at the last. -/
inductive Refused (ask : String → EStateM ε σ Bool) : σ → List String → List String → ε → σ → Prop
  | here {s s' : σ} {expression : String} {others : List String} {fault : ε} :
      (ask expression).run s = .error fault s' →
      Refused ask s (expression :: others) [expression] fault s'
  | later {s s' s'' : σ} {expression : String} {answer : Bool} {others put : List String}
      {fault : ε} :
      (ask expression).run s = .ok answer s' → Refused ask s' others put fault s'' →
      Refused ask s (expression :: others) (expression :: put) fault s''

theorem answered_or_refused (ask : String → EStateM ε σ Bool) (s : σ) (questions : List String) :
    (∃ s', Answered ask s questions s') ∨ ∃ put fault s', Refused ask s questions put fault s' := by
  induction questions generalizing s with
  | nil => exact .inl ⟨s, .nil⟩
  | cons expression others ih =>
      cases here : (ask expression).run s with
      | error fault s' => exact .inr ⟨_, fault, s', .here here⟩
      | ok answer s' =>
          obtain ⟨s'', answered⟩ | ⟨put, fault, s'', refused⟩ := ih s'
          · exact .inl ⟨s'', .cons here answered⟩
          · exact .inr ⟨_, fault, s'', .later here refused⟩

theorem Answered.of_append {s s'' : σ} {first others : List String}
    (h : Answered ask s (first ++ others) s'') :
    ∃ s', Answered ask s first s' ∧ Answered ask s' others s'' := by
  induction first generalizing s with
  | nil => exact ⟨s, .nil, h⟩
  | cons expression first ih =>
      cases h with
      | cons here rest =>
          obtain ⟨s', answered, later⟩ := ih rest
          exact ⟨s', .cons here answered, later⟩

theorem Refused.of_append {s s'' : σ} {first others put : List String} {fault : ε}
    (h : Refused ask s (first ++ others) put fault s'') :
    Refused ask s first put fault s''
      ∨ ∃ s' put', Answered ask s first s' ∧ Refused ask s' others put' fault s''
        ∧ put = first ++ put' := by
  induction first generalizing s put with
  | nil => exact .inr ⟨s, put, .nil, h, rfl⟩
  | cons expression first ih =>
      cases h with
      | here failed => exact .inl (.here failed)
      | later here rest =>
          obtain refused | ⟨s', put', answered, refused, rfl⟩ := ih rest
          · exact .inl (.later here refused)
          · exact .inr ⟨s', put', .cons here answered, refused, rfl⟩

/-- The evaluator with a record of what it is asked, the latest last. -/
def recorded (ask : String → EStateM ε σ Bool) (expression : String) :
    EStateM ε (σ × List String) Bool := fun (s, record) =>
  match (ask expression).run s with
  | .ok answer s' => .ok answer (s', record ++ [expression])
  | .error fault s' => .error fault (s', record ++ [expression])

/-- How a computation ends, with and without a record, by what the evaluator does when it is asked
some questions. -/
structure Follows (ask : String → EStateM ε σ Bool) {α : Type} (questions : List String)
    (x : EStateM ε σ α) (y : EStateM ε (σ × List String) α) : Prop where
  answered : ∀ s s' record, Answered ask s questions s' →
    ∃ a, x.run s = .ok a s' ∧ y.run (s, record) = .ok a (s', record ++ questions)
  refused : ∀ s put fault s' record, Refused ask s questions put fault s' →
    x.run s = .error fault s' ∧ y.run (s, record) = .error fault (s', record ++ put)

theorem follows_question (ask : String → EStateM ε σ Bool) (expression : String) :
    Follows ask [expression] (ask expression) (recorded ask expression) := by
  constructor
  · intro s s' record h
    cases h with
    | cons here rest =>
        cases rest
        refine ⟨_, here, ?_⟩
        simp only [recorded, EStateM.run] at here ⊢
        rw [here]
  · intro s put fault s' record h
    cases h with
    | here failed =>
        refine ⟨failed, ?_⟩
        simp only [recorded, EStateM.run] at failed ⊢
        rw [failed]
    | later _ rest => cases rest

theorem follows_pure (ask : String → EStateM ε σ Bool) {α : Type} (a : α) :
    Follows ask [] (pure a) (pure a) := by
  constructor
  · intro s s' record h
    cases h
    exact ⟨a, rfl, by rw [List.append_nil]; rfl⟩
  · intro s put fault s' record h
    cases h

theorem Follows.bind {α β : Type} {first others : List String} {x : EStateM ε σ α}
    {y : EStateM ε (σ × List String) α} {f : α → EStateM ε σ β}
    {g : α → EStateM ε (σ × List String) β} (h : Follows ask first x y)
    (rest : ∀ a, Follows ask others (f a) (g a)) :
    Follows ask (first ++ others) (x >>= f) (y >>= g) := by
  constructor
  · intro s s'' record whole
    obtain ⟨s', answered, later⟩ := whole.of_append
    obtain ⟨a, plain, noted⟩ := h.answered s s' record answered
    obtain ⟨b, plain', noted'⟩ := (rest a).answered s' s'' (record ++ first) later
    rw [EStateM.run_bind, EStateM.run_bind, plain, noted, ← List.append_assoc]
    exact ⟨b, plain', noted'⟩
  · intro s put fault s'' record whole
    rw [EStateM.run_bind, EStateM.run_bind]
    obtain refused | ⟨s', put', answered, refused, rfl⟩ := whole.of_append
    · obtain ⟨plain, noted⟩ := h.refused s put fault s'' record refused
      rw [plain, noted]
      exact ⟨rfl, rfl⟩
    · obtain ⟨a, plain, noted⟩ := h.answered s s' record answered
      rw [plain, noted, ← List.append_assoc]
      exact (rest a).refused s' put' fault s'' (record ++ first) refused

/-- An evaluator keeps in step with its record. -/
def inStep_recorded (ask : String → EStateM ε σ Bool) : InStep ask (recorded ask) where
  Holds := Follows ask
  question := follows_question ask
  done := follows_pure ask
  next := Follows.bind

/-- The evaluator is asked the conditions of the tree, in their order and each once, until it fails
at one; and the resolution succeeds if it answers all of them, and fails as it does if it fails. -/
theorem resolve_asked (ask : String → EStateM ε σ Bool) (sheet : Stylesheet) (root : Component)
    (s : σ) :
    (∀ s', Answered ask s (asked sheet root) s' →
        ∃ r, (resolve ask sheet root).run s = .ok r s'
          ∧ (resolve (recorded ask) sheet root).run (s, []) = .ok r (s', asked sheet root))
      ∧ (∀ put fault s', Refused ask s (asked sheet root) put fault s' →
        (resolve ask sheet root).run s = .error fault s'
          ∧ (resolve (recorded ask) sheet root).run (s, []) = .error fault (s', put))
      ∧ ((∃ s', Answered ask s (asked sheet root) s')
        ∨ ∃ put fault s', Refused ask s (asked sheet root) put fault s') := by
  have follows : Follows ask (asked sheet root) _ _ :=
    (inStep_recorded ask).holds_resolve sheet root
  exact ⟨fun s' => follows.answered s s' [], fun put fault s' => follows.refused s put fault s' [],
    answered_or_refused ask s (asked sheet root)⟩

end Stateful

/-- An evaluator that counts its questions and fails at `z`. A tree without that condition is
resolved, and one with it is given up there: what stands behind it is never asked. -/
theorem resolve_asked_counting :
    let ask (expression : String) : EStateM String Nat Bool := fun n =>
      if expression = "z" then .error "no z" (n + 1) else .ok (n % 2 == 0) (n + 1)
    let sheet : Stylesheet := ⟨[⟨"a", [⟨"k", .default, some "x", 0⟩, ⟨"k", .default, none, 0⟩], 3⟩,
      ⟨"c", [⟨"k", .default, some "v", 0⟩], 4⟩], "s"⟩
    let single : Component := .node "a" 1 [⟨"k", .default, some "y", 1⟩] []
    let root : Component := .node "a" 1 [⟨"k", .default, some "y", 1⟩]
      [.node "b" 2 [⟨"j", .default, some "z", 2⟩, ⟨"j", .default, some "w", 2⟩] []]
    Answered ask 0 (asked sheet single) 2
      ∧ (∃ r, (resolve (recorded ask) sheet single).run (0, []) = .ok r (2, ["x", "y"]))
      ∧ Refused ask 0 (asked sheet root) ["x", "y", "z"] "no z" 3
      ∧ (resolve (recorded ask) sheet root).run (0, []) = .error "no z" (3, ["x", "y", "z"]) := by
  intro ask sheet single root
  have answered : Answered ask 0 (asked sheet single) 2 := .cons rfl (.cons rfl .nil)
  have refused : Refused ask 0 (asked sheet root) ["x", "y", "z"] "no z" 3 :=
    .later rfl (.later rfl (.here rfl))
  obtain ⟨r, _, noted⟩ := (resolve_asked ask sheet single 0).1 2 answered
  obtain ⟨_, stopped⟩ := (resolve_asked ask sheet root 0).2.1 _ _ 3 refused
  exact ⟨answered, ⟨r, noted⟩, refused, stopped⟩

end Cascade

end MarkupCascade
