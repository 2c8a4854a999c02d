import MarkupCascade.Cascade
import MarkupCascade.Proofs.Outline
import MarkupCascade.Proofs.Table

/-!
What the cascade settles. Every attribute declared for a component is put to the evaluator once, in
order; of those that apply, the last under a key gives its value and its origin, and the first its
place. Values and origins that are written to two tables as the answers come in are those of the
settings. A tree is resolved component by component, in document order. All of this holds for an
evaluator of any effects.
-/

namespace MarkupCascade

namespace ResolvedComponent

mutual

/-- A resolved component and all below it in document order, each with its depth. -/
def outline (depth : Nat) : ResolvedComponent → List (Nat × ResolvedAttributes)
  | .node as children => (depth, as) :: outlineAll (depth + 1) children

def outlineAll (depth : Nat) : List ResolvedComponent → List (Nat × ResolvedAttributes)
  | [] => []
  | c :: cs => outline depth c ++ outlineAll depth cs

end

end ResolvedComponent

namespace Cascade

/-- What is declared for a component, the weakest first: the attributes of the rules of its class
and then its own, each with its origin. -/
def declared (sheet : Stylesheet) (className : String) (line : Int)
    (attributes : List Attribute) : List (Attribute × Origin) :=
  ((sheet.rules.filter fun r => r.className = className).flatMap fun r =>
      r.attributes.map fun a => (a, ⟨.style, if a.line = 0 then r.line else a.line, sheet.name⟩))
    ++ attributes.map fun a => (a, ⟨.template, if a.line = 0 then line else a.line, "template"⟩)

/-- The declarations with the answer `true`. -/
def applied (ds : List (Attribute × Origin)) (answers : List Bool) : List (Attribute × Origin) :=
  ((ds.zip answers).filter (·.2)).map (·.1)

/-- The settings that declarations, all of which apply, leave behind. -/
def settled (className : String) (line : Int) (ds : List (Attribute × Origin)) :
    ResolvedAttributes :=
  ⟨className, line, Table.ofList (ds.map fun d => (d.1.key, ⟨d.1.value, d.2⟩))⟩

/-- A table that holds what applicable declarations decide. -/
structure Decided (ds : List (Attribute × Origin)) (t : Table Setting) : Prop where
  present : ∀ key, t.contains key = true ↔ ∃ d ∈ ds, d.1.key = key
  last : ∀ before d after, ds = before ++ d :: after → (∀ e ∈ after, e.1.key ≠ d.1.key) →
    t.get? d.1.key = some ⟨d.1.value, d.2⟩
  order : t.keys = (ds.map (·.1.key)).eraseDups

theorem decided_settled (className : String) (line : Int) (ds : List (Attribute × Origin)) :
    Decided ds (settled className line ds).settings := by
  have keys : (settled className line ds).settings.keys = (ds.map (·.1.key)).eraseDups := by
    rw [settled, Table.ofList, Table.keys_insertAll, Table.keys_empty, List.map_map]
    simp [Function.comp_def]
  refine ⟨fun key => ?_, ?_, keys⟩
  · rw [Table.contains_iff_mem_keys, keys, List.mem_eraseDups, List.mem_map]
  · rintro before d after rfl later
    rw [settled, Table.ofList, Table.get?_insertAll, List.map_append, List.map_cons,
      Table.last?_append_cons _ _ _ (List.forall_mem_map.2 later), Option.some_or]

/-- The candidate of a declaration. -/
abbrev candidate (d : Attribute × Origin) : Candidate := .of d.1 d.2

theorem candidates_eq (sheet : Stylesheet) (className : String) (line : Int)
    (attributes : List Attribute) :
    candidates sheet className line attributes
      = (declared sheet className line attributes).map candidate := by
  simp only [candidates, declared, Stylesheet.matching, List.map_append, List.map_flatMap,
    List.map_map]
  rfl

theorem settle_map_candidate (ds : List (Attribute × Origin)) :
    settle (ds.map candidate) = Table.ofList (ds.map fun d => (d.1.key, ⟨d.1.value, d.2⟩)) := by
  rw [settle, Table.ofList, Table.insertAll, List.foldl_map, List.foldl_map]
  rfl

variable {m : Type → Type} [Monad m]

/-- Whether a declaration applies: it does where it has no condition, and else the evaluator is
asked. -/
def verdict (ask : String → m Bool) (d : Attribute × Origin) : m Bool :=
  match d.1.condition with
  | none => pure true
  | some expression => ask expression

variable [LawfulMonad m]

theorem applicable_candidate_cons (ask : String → m Bool) (d : Attribute × Origin)
    (cs : List Candidate) :
    applicable ask (candidate d :: cs) = (do
      let holds ← verdict ask d
      let others ← applicable ask cs
      return if holds then candidate d :: others else others) := by
  obtain ⟨⟨key, value, condition, line⟩, origin⟩ := d
  cases condition <;> simp [applicable, verdict, Candidate.of]

theorem applicable_map_candidate (ask : String → m Bool) (ds : List (Attribute × Origin)) :
    applicable ask (ds.map candidate)
      = (fun answers => (applied ds answers).map candidate) <$> ds.mapM (verdict ask) := by
  induction ds with
  | nil => simp [applicable, applied]
  | cons d ds ih =>
      rw [List.map_cons, applicable_candidate_cons, ih, List.mapM_cons, map_bind]
      refine bind_congr fun holds => ?_
      simp only [bind_map_left, map_bind, map_pure]
      refine bind_congr fun answers => ?_
      cases holds <;> rfl

/-- The settings of a component follow from the answers to its declarations. -/
theorem resolveAttributes_eq (ask : String → m Bool) (sheet : Stylesheet) (className : String)
    (line : Int) (attributes : List Attribute) :
    resolveAttributes ask sheet className line attributes = (do
      let answers ← (declared sheet className line attributes).mapM (verdict ask)
      return settled className line
        (applied (declared sheet className line attributes) answers)) := by
  rw [resolveAttributes, candidates_eq, applicable_map_candidate, bind_map_left]
  refine bind_congr fun answers => ?_
  rw [settle_map_candidate]
  rfl

/-! Values and origins in tables of their own. -/

/-- The values and the origins of settings. -/
def apart (t : Table Setting) : Table Value × Table Origin := (t.map (·.value), t.map (·.origin))

/-- Goes through declarations one by one, and writes the value and the origin of each that applies
before the evaluator is asked about the next. -/
def settleApart (ask : String → m Bool) :
    Table Value × Table Origin → List (Attribute × Origin) → m (Table Value × Table Origin)
  | kept, [] => pure kept
  | (values, origins), d :: ds => do
    let holds ← verdict ask d
    if holds then settleApart ask (values.insert d.1.key d.1.value, origins.insert d.1.key d.2) ds
    else settleApart ask (values, origins) ds

theorem apart_insert (t : Table Setting) (key : String) (s : Setting) :
    apart (t.insert key s) = ((apart t).1.insert key s.value, (apart t).2.insert key s.origin) := by
  simp only [apart, Table.map_insert]

/-- Two tables that begin in step with some settings stay in step with them. -/
theorem settleApart_apart (ask : String → m Bool) (ds : List (Attribute × Origin))
    (t : Table Setting) :
    settleApart ask (apart t) ds
      = (fun answers => apart
          (t.insertAll ((applied ds answers).map fun d => (d.1.key, ⟨d.1.value, d.2⟩))))
        <$> ds.mapM (verdict ask) := by
  induction ds generalizing t with
  | nil => simp [settleApart, applied, Table.insertAll]
  | cons d ds ih =>
      rw [settleApart, List.mapM_cons, map_bind]
      apply bind_congr
      intro holds
      rw [bind_pure_comp, Functor.map_map]
      cases holds with
      | false => exact ih t
      | true =>
          have written := ih (t.insert d.1.key ⟨d.1.value, d.2⟩)
          rw [apart_insert] at written
          exact written

/-- The two tables of a component are those of its settings. They have the same keys in the same
order, and hold under each of them the value and the origin that are in force. -/
theorem settleApart_declared (ask : String → m Bool) (sheet : Stylesheet) (className : String)
    (line : Int) (attributes : List Attribute) :
    settleApart ask (∅, ∅) (declared sheet className line attributes)
        = (fun r => apart r.settings) <$> resolveAttributes ask sheet className line attributes
      ∧ ∀ t : Table Setting, (apart t).1.keys = t.keys ∧ (apart t).2.keys = t.keys
        ∧ ∀ key, (apart t).1.get? key = (t.get? key).map (·.value)
          ∧ (apart t).2.get? key = (t.get? key).map (·.origin) := by
  constructor
  · rw [resolveAttributes_eq, bind_pure_comp, Functor.map_map]
    exact settleApart_apart ask _ ∅
  · intro t
    refine ⟨Table.keys_map _ t, Table.keys_map _ t, ?_⟩
    intro key
    exact ⟨Table.get?_map _ t key, Table.get?_map _ t key⟩

/-- One step of resolving a tree: a component at its depth. -/
def resolveAt (ask : String → m Bool) (sheet : Stylesheet) (t : Nat × Component) :
    m (Nat × ResolvedAttributes) :=
  (t.1, ·) <$> resolveAttributes ask sheet t.2.className t.2.line t.2.attributes

theorem outlineAll_resolveAll (ask : String → m Bool) (sheet : Stylesheet) (cs : List Component)
    (depth : Nat)
    (each : ∀ c ∈ cs, ResolvedComponent.outline depth <$> resolve ask sheet c
      = (c.outline depth).mapM (resolveAt ask sheet)) :
    ResolvedComponent.outlineAll depth <$> resolveAll ask sheet cs
      = (cs.flatMap (Component.outline depth)).mapM (resolveAt ask sheet) := by
  induction cs with
  | nil => simp [resolveAll, ResolvedComponent.outlineAll]
  | cons c cs ih =>
      rw [List.flatMap_cons, List.mapM_append, ← each c List.mem_cons_self,
        ← ih fun c' hc' => each c' (List.mem_cons_of_mem _ hc')]
      simp only [resolveAll, map_bind, map_pure, bind_map_left, ResolvedComponent.outlineAll]

/-- Resolving a tree is resolving its components in document order, and keeps its shape. -/
theorem outline_resolve (ask : String → m Bool) (sheet : Stylesheet) (root : Component)
    (depth : Nat) :
    ResolvedComponent.outline depth <$> resolve ask sheet root
      = (root.outline depth).mapM (resolveAt ask sheet) := by
  induction root using Component.induction generalizing depth with
  | node className line attributes children ih =>
      rw [Component.outline, Component.outlineAll_eq_flatMap, List.mapM_cons,
        ← outlineAll_resolveAll ask sheet children (depth + 1) fun c hc => ih c hc (depth + 1)]
      simp only [resolve, resolveAt, map_bind, map_pure, bind_map_left,
        ResolvedComponent.outline]
      rfl

/-- The cascade of a component and of a tree, under an evaluator of any effects. The declarations
that apply decide the settings, whatever the answers were. -/
theorem resolve_decided (ask : String → m Bool) (sheet : Stylesheet) :
    (∀ className line attributes,
      resolveAttributes ask sheet className line attributes = (do
        let answers ← (declared sheet className line attributes).mapM (verdict ask)
        return settled className line
          (applied (declared sheet className line attributes) answers)))
      ∧ (∀ className line ds,
        (settled className line ds).className = className ∧ (settled className line ds).line = line
          ∧ Decided ds (settled className line ds).settings)
      ∧ ∀ root,
        ResolvedComponent.outline 0 <$> resolve ask sheet root
          = (root.outline 0).mapM fun t =>
            (t.1, ·) <$> resolveAttributes ask sheet t.2.className t.2.line t.2.attributes :=
  ⟨resolveAttributes_eq ask sheet, fun className line ds =>
    ⟨rfl, rfl, decided_settled className line ds⟩, fun root => outline_resolve ask sheet root 0⟩

/-- An evaluator that agrees to every other condition: of two declarations of `k` in force the later
one decides, in the place of the earlier. -/
theorem resolve_decided_alternating :
    let ask (_ : String) : StateM Nat Bool := fun n => pure (n % 2 == 0, n + 1)
    let sheet : Stylesheet := ⟨[⟨"a", [⟨"k", .integer 1, some "x", 0⟩], 3⟩], "s"⟩
    let own : List Attribute := [⟨"j", .integer 2, none, 7⟩, ⟨"k", .integer 3, some "y", 8⟩,
      ⟨"k", .integer 4, some "z", 9⟩]
    ∃ r, ((resolveAttributes ask sheet "a" 7 own).run 0).1 = r
      ∧ r.settings.keys = ["k", "j"]
      ∧ r.settings.get? "k" = some ⟨.integer 4, .template, 9, "template"⟩ := by
  intro ask sheet own
  have applies : applied (declared sheet "a" 7 own) [true, true, false, true]
      = [(⟨"k", .integer 1, some "x", 0⟩, (⟨.style, 3, "s"⟩ : Origin)),
        (⟨"j", .integer 2, none, 7⟩, ⟨.template, 7, "template"⟩),
        (⟨"k", .integer 4, some "z", 9⟩, ⟨.template, 9, "template"⟩)] := by
    simp [applied, declared, sheet, own]
  obtain ⟨component, table, _⟩ := resolve_decided ask sheet
  have decided := (table "a" 7 (applied (declared sheet "a" 7 own) [true, true, false, true])).2.2
  refine ⟨settled "a" 7 (applied (declared sheet "a" 7 own) [true, true, false, true]), ?_, ?_, ?_⟩
  · rw [component]
    rfl
  · rw [decided.order, applies]
    simp [List.eraseDups_cons]
  · exact decided.last [_, _] _ [] applies (by simp)

end Cascade

end MarkupCascade
