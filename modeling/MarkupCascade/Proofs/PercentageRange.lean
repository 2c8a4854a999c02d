import Mathlib
import MarkupCascade.Validation

/-!
Which percentages validation reports. A percentage has its place in the documents: the number of the
declaration whose value holds it and, for each tuple around it, the number of the item it is in. Of
the places where a percentage is out of range each is reported once, in their lexicographic order,
and nothing else is.
-/

namespace MarkupCascade

namespace Value

/-- A percentage in a value, and the way to it: which item to take of each tuple around it. -/
inductive HasPercentage : Value → List Nat → Int → Prop
  | here {n : Int} : HasPercentage (.percentage n) [] n
  | inside {items : List Value} {i : Nat} {v : Value} {path : List Nat} {n : Int} :
      items[i]? = some v → HasPercentage v path n → HasPercentage (.tuple items) (i :: path) n

mutual

/-- The percentages in a value from left to right, each with the way to it. -/
def leaves : Value → List (List Nat × Int)
  | .percentage n => [([], n)]
  | .tuple items => leavesFrom 0 items
  | _ => []

def leavesFrom (i : Nat) : List Value → List (List Nat × Int)
  | [] => []
  | v :: vs => (leaves v).map (fun leaf => (i :: leaf.1, leaf.2)) ++ leavesFrom (i + 1) vs

end

/-- What passes from the items of a tuple to the tuple holds of all values if it holds of those that
are no tuple. -/
theorem nestedInduction {motive : Value → Prop} (single : ∀ v : Value, v.kind ≠ .tuple → motive v)
    (tuple : ∀ items : List Value, (∀ v ∈ items, motive v) → motive (.tuple items)) (v : Value) :
    motive v := by
  refine @Value.rec motive (fun items => ∀ v ∈ items, motive v) (single _ nofun)
    (fun _ => single _ nofun) (fun _ => single _ nofun) (fun _ => single _ nofun)
    (fun _ => single _ nofun) tuple (List.forall_mem_nil _) ?_ v
  exact fun v items first others => List.forall_mem_cons.2 ⟨first, others⟩

theorem percentagesOf_eq_flatMap (items : List Value) :
    percentagesOf items = items.flatMap percentages := by
  induction items with
  | nil => rfl
  | cons v items ih => rw [percentagesOf, ih, List.flatMap_cons]

theorem leavesFrom_eq_flatMap (i : Nat) (items : List Value) :
    leavesFrom i items = (items.zipIdx i).flatMap fun item =>
      (leaves item.1).map fun leaf => (item.2 :: leaf.1, leaf.2) := by
  induction items generalizing i with
  | nil => rfl
  | cons v items ih => rw [leavesFrom, ih, List.zipIdx_cons, List.flatMap_cons]

theorem leaves_tuple (items : List Value) :
    leaves (.tuple items) = items.zipIdx.flatMap fun item =>
      (leaves item.1).map fun leaf => (item.2 :: leaf.1, leaf.2) := by
  rw [leaves, leavesFrom_eq_flatMap]

theorem hasPercentage_tuple_iff {items : List Value} {path : List Nat} {n : Int} :
    HasPercentage (.tuple items) path n
      ↔ ∃ i v rest, items[i]? = some v ∧ HasPercentage v rest n ∧ path = i :: rest := by
  constructor
  · intro h
    cases h with
    | inside found below => exact ⟨_, _, _, found, below, rfl⟩
  · rintro ⟨i, v, rest, found, below, rfl⟩
    exact .inside found below

theorem mem_leaves_iff {v : Value} {path : List Nat} {n : Int} :
    (path, n) ∈ leaves v ↔ HasPercentage v path n := by
  induction v using nestedInduction generalizing path with
  | single v plain =>
      cases v
      case percentage m =>
        rw [leaves, List.mem_singleton]
        constructor
        · rintro ⟨rfl, rfl⟩
          exact .here
        · rintro ⟨⟩
          rfl
      case tuple => exact absurd rfl plain
      all_goals exact iff_of_false List.not_mem_nil (by rintro ⟨⟩)
  | tuple items ih =>
      rw [leaves_tuple, hasPercentage_tuple_iff, List.mem_flatMap]
      constructor
      · rintro ⟨⟨v, i⟩, inside, leaf⟩
        obtain ⟨⟨rest, m⟩, below, same⟩ := List.mem_map.1 leaf
        cases same
        have found := List.mk_mem_zipIdx_iff_getElem?.1 inside
        exact ⟨i, v, rest, found, (ih v (List.mem_of_getElem? found)).1 below, rfl⟩
      · rintro ⟨i, v, rest, found, below, rfl⟩
        have leaf := (ih v (List.mem_of_getElem? found)).2 below
        exact ⟨(v, i), List.mk_mem_zipIdx_iff_getElem?.2 found, List.mem_map.2 ⟨_, leaf, rfl⟩⟩

theorem map_snd_leaves (v : Value) : (leaves v).map (·.2) = percentages v := by
  induction v using nestedInduction with
  | single v plain =>
      cases v
      case tuple => exact absurd rfl plain
      all_goals rfl
  | tuple items ih =>
      rw [leaves_tuple, percentages, percentagesOf_eq_flatMap, List.map_flatMap]
      simp only [List.map_map, Function.comp_def]
      calc items.zipIdx.flatMap (fun item => (leaves item.1).map (·.2))
          = (items.zipIdx.map Prod.fst).flatMap fun v => (leaves v).map (·.2) := by
            rw [List.flatMap_map]
        _ = items.flatMap percentages := by
            rw [List.zipIdx_map_fst, List.flatMap_congr ih]

end Value

/-- Where what is found in one item comes in order and begins with the number of the item, all that
is found comes in order. -/
theorem pairwise_flatMap_zipIdx {α β : Type} {xs : List α} {f : α × Nat → List β}
    {place : β → List Nat} (within : ∀ x ∈ xs.zipIdx, (f x).Pairwise (place · < place ·))
    (first : ∀ x ∈ xs.zipIdx, ∀ b ∈ f x, ∃ rest, place b = x.2 :: rest) :
    (xs.zipIdx.flatMap f).Pairwise (place · < place ·) := by
  refine List.pairwise_flatMap.2 ⟨within, ?_⟩
  have numbers : xs.zipIdx.Pairwise (·.2 < ·.2) := by
    rw [← List.pairwise_map, List.zipIdx_map_snd]
    exact List.pairwise_lt_range' 1
  refine numbers.imp_of_mem fun {x y} hx hy before a ha b hb => ?_
  obtain ⟨rest, ofA⟩ := first x hx a ha
  obtain ⟨rest', ofB⟩ := first y hy b hb
  rw [ofA, ofB]
  exact .rel before

theorem Value.pairwise_leaves (v : Value) : v.leaves.Pairwise (·.1 < ·.1) := by
  induction v using nestedInduction with
  | single v plain =>
      cases v
      case percentage => exact List.pairwise_singleton _ _
      case tuple => exact absurd rfl plain
      all_goals exact .nil
  | tuple items ih =>
      rw [leaves_tuple]
      refine pairwise_flatMap_zipIdx (fun item inside => ?_) fun item _ leaf found => ?_
      · have inOrder := ih item.1 (List.fst_mem_of_mem_zipIdx inside)
        exact List.pairwise_map.2 (inOrder.imp fun before => .cons before)
      · obtain ⟨leaf, _, rfl⟩ := List.mem_map.1 found
        exact ⟨_, rfl⟩

namespace Validation

/-- A percentage among declarations: the number of its declaration followed by the way to it in the
value. -/
structure Leaf where
  place : List Nat
  declared : Declared
  coefficient : Int

def Leaf.StandsIn (ds : List Declared) (leaf : Leaf) : Prop :=
  ∃ i path, leaf.place = i :: path ∧ ds[i]? = some leaf.declared
    ∧ leaf.declared.declared.value.HasPercentage path leaf.coefficient

/-- What is said of a percentage that is out of range. -/
def Leaf.report (config : Configuration) (leaf : Leaf) : Diagnostic where
  rule := "check_percentage_range"
  severity := .warning
  message := s!"Percentage {leaf.coefficient}% for '{leaf.declared.declared.key}' is outside "
    ++ s!"{config.lowest}-{config.highest}%."
  line := some leaf.declared.line
  source := leaf.declared.source

def IsOutside (config : Configuration) (n : Int) : Prop := n < config.lowest ∨ config.highest < n

instance (config : Configuration) : DecidablePred (IsOutside config) :=
  fun n => inferInstanceAs (Decidable (n < config.lowest ∨ config.highest < n))

theorem decide_isOutside (config : Configuration) (n : Int) :
    decide (IsOutside config n) = (n < config.lowest || config.highest < n) :=
  Bool.decide_or _ _

/-- The percentages that are out of range, in the order of their places. -/
def outOfRange (config : Configuration) (ds : List Declared) : List Leaf :=
  ds.zipIdx.flatMap fun d =>
    (d.1.declared.value.leaves.filter fun leaf => IsOutside config leaf.2).map fun leaf =>
      ⟨d.2 :: leaf.1, d.1, leaf.2⟩

variable {config : Configuration} {ds : List Declared}

theorem mem_outOfRange_iff {leaf : Leaf} :
    leaf ∈ outOfRange config ds ↔ leaf.StandsIn ds ∧ IsOutside config leaf.coefficient := by
  rw [outOfRange, List.mem_flatMap]
  constructor
  · rintro ⟨⟨d, i⟩, inside, listed⟩
    obtain ⟨⟨path, n⟩, kept, rfl⟩ := List.mem_map.1 listed
    obtain ⟨found, outside⟩ := List.mem_filter.1 kept
    exact ⟨⟨i, path, rfl, List.mk_mem_zipIdx_iff_getElem?.1 inside, Value.mem_leaves_iff.1 found⟩,
      of_decide_eq_true outside⟩
  · obtain ⟨place, d, n⟩ := leaf
    rintro ⟨⟨i, path, rfl, inside, found⟩, outside⟩
    refine ⟨(d, i), List.mk_mem_zipIdx_iff_getElem?.2 inside, List.mem_map.2 ⟨(path, n), ?_, rfl⟩⟩
    exact List.mem_filter.2 ⟨Value.mem_leaves_iff.2 found, decide_eq_true outside⟩

theorem pairwise_outOfRange : (outOfRange config ds).Pairwise (·.place < ·.place) := by
  refine pairwise_flatMap_zipIdx (fun d _ => ?_) fun d _ leaf found => ?_
  · have inOrder := (Value.pairwise_leaves d.1.declared.value).filter fun leaf =>
      decide (IsOutside config leaf.2)
    exact List.pairwise_map.2 (inOrder.imp fun before => .cons before)
  · obtain ⟨leaf, _, rfl⟩ := List.mem_map.1 found
    exact ⟨_, rfl⟩

theorem percentageRange_eq (root : Component) (sheet : Stylesheet) (config : Configuration) :
    percentageRange root sheet config
      = (outOfRange config (declarations root sheet)).map (Leaf.report config) := by
  rw [outOfRange, List.map_flatMap]
  conv_lhs => rw [percentageRange, ← List.zipIdx_map_fst 0 (declarations root sheet)]
  rw [List.flatMap_map]
  refine List.flatMap_congr fun d _ => ?_
  -- The way to a percentage has no part in its report.
  simp only [← decide_isOutside]
  rw [← Value.map_snd_leaves, List.filter_map, List.map_map, List.map_map]
  rfl

/-- The check of percentages goes through the declarations of the stylesheet and then through those
of the template, at the line of each or, if that is 0, of its rule or component. The percentages in
their values that are out of range are reported in order and each once; so there is nothing to
report exactly if all percentages are in range. -/
theorem percentageRange_reports (root : Component) (sheet : Stylesheet) (config : Configuration) :
    let ofSheet := sheet.rules.flatMap fun r => r.attributes.map fun a =>
      Declared.mk a sheet.name (if a.line = 0 then r.line else a.line)
    let ofTemplate := root.walk.flatMap fun c => c.attributes.map fun a =>
      Declared.mk a "template" (if a.line = 0 then c.line else a.line)
    (∃ found : List Leaf,
      percentageRange root sheet config = found.map (Leaf.report config)
        ∧ found.Pairwise (·.place < ·.place)
        ∧ ∀ leaf, leaf ∈ found ↔ leaf.StandsIn (ofSheet ++ ofTemplate)
          ∧ (leaf.coefficient < config.lowest ∨ config.highest < leaf.coefficient))
    ∧ (percentageRange root sheet config = [] ↔
      ∀ d ∈ ofSheet ++ ofTemplate, ∀ path n, d.declared.value.HasPercentage path n →
        config.lowest ≤ n ∧ n ≤ config.highest) := by
  intro ofSheet ofTemplate
  have reported := percentageRange_eq root sheet config
  refine ⟨⟨_, reported, pairwise_outOfRange, fun leaf => mem_outOfRange_iff⟩, ?_⟩
  rw [reported, List.map_eq_nil_iff, List.eq_nil_iff_forall_not_mem]
  simp only [mem_outOfRange_iff]
  constructor
  · intro none d hd path n found
    obtain ⟨i, inside⟩ := List.mem_iff_getElem?.1 hd
    have within : ¬IsOutside config n := fun outside =>
      none ⟨i :: path, d, n⟩ ⟨⟨i, path, rfl, inside, found⟩, outside⟩
    simpa only [IsOutside, not_or, not_lt] using within
  · rintro within leaf ⟨⟨i, path, _, inside, found⟩, outside⟩
    obtain ⟨low, high⟩ := within _ (List.mem_of_getElem? inside) path _ found
    exact outside.elim low.not_gt high.not_gt

/-- A percentage of a conditional declaration and two in nested tuples, one of which is in range. A
large integer does not count. -/
theorem percentageRange_reports_nested :
    let items : Value := .tuple [.integer 900, .tuple [.percentage 7, .percentage 101]]
    let root : Component := .node "a" 4 [⟨"k", items, none, 0⟩] []
    let sheet : Stylesheet := ⟨[⟨"a", [⟨"j", .percentage (-1), some "x", 2⟩], 1⟩], "s"⟩
    (percentageRange root sheet {}).map (·.text)
        = ["WARNING [s:2]: Percentage -1% for 'j' is outside 0-100%.",
          "WARNING [template:4]: Percentage 101% for 'k' is outside 0-100%."]
      ∧ ∃ found : List Leaf, percentageRange root sheet {} = found.map (Leaf.report {})
        ∧ ⟨[0], ⟨⟨"j", .percentage (-1), some "x", 2⟩, "s", 2⟩, -1⟩ ∈ found
        ∧ ⟨[1, 1, 1], ⟨⟨"k", items, none, 0⟩, "template", 4⟩, 101⟩ ∈ found := by
  intro items root sheet
  obtain ⟨⟨found, reported, _, listed⟩, _⟩ := percentageRange_reports root sheet {}
  refine ⟨by decide +kernel, found, reported, ?_, ?_⟩
  · exact (listed _).2 ⟨⟨0, [], rfl, rfl, .here⟩, .inl (by decide)⟩
  · exact (listed _).2 ⟨⟨1, [1, 1], rfl, rfl, .inside rfl (.inside rfl .here)⟩, .inr (by decide)⟩

end Validation

end MarkupCascade
