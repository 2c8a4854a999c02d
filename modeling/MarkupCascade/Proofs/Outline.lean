import MarkupCascade.Template
import Mathlib.Data.List.Chain
import Mathlib.Data.List.TakeWhile

/-!
The outline of a tree: its components in document order, each with its depth. The depths of an
outline grow by at most one from a component to the next, every list of entries with such depths is
the outline of a forest, and a forest is determined by its outline.
-/

namespace MarkupCascade

namespace Component

theorem induction {motive : Component → Prop}
    (node : ∀ className line attributes children, (∀ c ∈ children, motive c) →
      motive (.node className line attributes children)) :
    ∀ c, motive c
  | .node className line attributes children =>
      node className line attributes children fun c _ => induction node c

theorem outlineAll_eq_flatMap (depth : Nat) (cs : List Component) :
    outlineAll depth cs = cs.flatMap (outline depth) := by
  induction cs with
  | nil => rfl
  | cons c cs ih => simp only [outlineAll, List.flatMap_cons, ih]

theorem length_walk (c : Component) : c.walk.length = (c.outline 0).length :=
  List.length_map _

/-- Depths as they follow each other in an outline. -/
abbrev Stepwise (depths : List Nat) : Prop := depths.IsChain fun before d => d ≤ before + 1

theorem le_depth_of_mem_outline (c : Component) (depth : Nat) :
    ∀ t ∈ c.outline depth, depth ≤ t.1 := by
  induction c using induction generalizing depth with
  | node className line attributes children ih =>
      intro t ht
      simp only [outline, outlineAll_eq_flatMap, List.mem_cons, List.mem_flatMap] at ht
      obtain rfl | ⟨c, hc, ht⟩ := ht
      · exact Nat.le_refl _
      · exact Nat.le_of_succ_le (ih c hc (depth + 1) t ht)

theorem head_outline (c : Component) (depth : Nat) :
    (c.outline depth).head? = some (depth, c) := by
  cases c
  rfl

/-- Only the first component of an outline stands at the depth it begins with. -/
theorem lt_depth_of_mem_tail_outline (c : Component) (depth : Nat) :
    ∀ t ∈ (c.outline depth).tail, depth < t.1 := by
  cases c with
  | node className line attributes children =>
      intro t ht
      simp only [outline, outlineAll_eq_flatMap, List.tail_cons, List.mem_flatMap] at ht
      obtain ⟨c, _, ht⟩ := ht
      exact le_depth_of_mem_outline c (depth + 1) t ht

/-- Outlines of several trees that begin at one depth may follow each other. -/
theorem stepwise_flatMap_outline (cs : List Component) (depth : Nat)
    (each : ∀ c ∈ cs, Stepwise ((c.outline depth).map (·.1))) :
    Stepwise ((cs.flatMap (outline depth)).map (·.1)) := by
  induction cs with
  | nil => exact .nil
  | cons c cs ih =>
      rw [List.flatMap_cons, List.map_append]
      refine List.isChain_append.2 ⟨each c List.mem_cons_self,
        ih fun c' hc' => each c' (List.mem_cons_of_mem _ hc'), ?_⟩
      intro before hbefore d hd
      have low : depth ≤ before := by
        obtain ⟨t, ht, rfl⟩ := List.mem_map.1 (List.mem_of_mem_getLast? hbefore)
        exact le_depth_of_mem_outline c depth t ht
      have here : d = depth := by
        cases cs with
        | nil => simp at hd
        | cons c' cs =>
            rw [List.flatMap_cons, List.map_append, List.head?_append, List.head?_map,
              head_outline] at hd
            simpa using hd.symm
      omega

theorem stepwise_outline (c : Component) (depth : Nat) :
    Stepwise ((c.outline depth).map (·.1)) := by
  induction c using induction generalizing depth with
  | node className line attributes children ih =>
      rw [outline, outlineAll_eq_flatMap, List.map_cons]
      refine List.isChain_cons.2
        ⟨?_, stepwise_flatMap_outline children (depth + 1) fun c hc => ih c hc (depth + 1)⟩
      intro d hd
      cases children with
      | nil => simp at hd
      | cons c cs =>
          rw [List.flatMap_cons, List.map_append, List.head?_append, List.head?_map,
            head_outline] at hd
          simp at hd
          omega

/-- The depth of a tree is the reach of its outline. The bound `m` stands for whatever else the
maximum is taken over. -/
theorem foldr_max_outline (c : Component) (depth m : Nat) :
    ((c.outline depth).map (·.1)).foldr max m + 1 = max (m + 1) (depth + c.depth) := by
  induction c using induction generalizing depth m with
  | node className line attributes children ih =>
      have below : max (depth + 1)
          (((children.flatMap (outline (depth + 1))).map (·.1)).foldr max m + 1)
            = max (m + 1) (depth + 1 + depthBelow children) := by
        induction children with
        | nil => simp [depthBelow, Nat.max_comm]
        | cons c cs ihcs =>
            have rest := ihcs fun c' hc' => ih c' (List.mem_cons_of_mem _ hc')
            rw [List.flatMap_cons, List.map_append, List.foldr_append,
              ih c List.mem_cons_self, depthBelow]
            omega
      rw [outline, outlineAll_eq_flatMap, List.map_cons, List.foldr_cons, Component.depth]
      omega

end Component

namespace Template

open Component (Stepwise outline)

/-- A component apart from what is below it, with its depth and its line. -/
abbrev Heading := Nat × Int × Declaration

def Entry.heading (e : Entry) : Heading := (e.depth, e.line, e.declaration)

def heading (t : Nat × Component) : Heading :=
  (t.1, t.2.line, ⟨t.2.className, t.2.attributes⟩)

/-- The entry of a heading whose line is no negative number. -/
def Entry.of (h : Heading) : Entry := ⟨h.1, h.2.1.toNat, h.2.2⟩

/-- Whether a tree stands below an entry, when it follows it. -/
abbrev deeper (e : Entry) (t : Nat × Component) : Bool := e.depth < t.1

theorem graft_eq (e : Entry) (forest : List (Nat × Component)) :
    graft e forest
      = (e.depth, .node e.declaration.className e.line e.declaration.attributes
          ((forest.takeWhile (deeper e)).map (·.2))) :: forest.dropWhile (deeper e) := rfl

/-- The roots of a forest come without growing depths. -/
abbrev Descending (forest : List (Nat × Component)) : Prop :=
  forest.Pairwise fun s t => t.1 ≤ s.1

theorem le_of_mem_dropWhile_deeper {e : Entry} {forest : List (Nat × Component)}
    (h : Descending forest) : ∀ t ∈ forest.dropWhile (deeper e), t.1 ≤ e.depth := by
  induction forest with
  | nil => simp
  | cons s forest ih =>
      obtain ⟨first, rest⟩ := List.pairwise_cons.1 h
      rw [List.dropWhile_cons]
      split
      · exact ih rest
      · rename_i shallow
        have low : s.1 ≤ e.depth := by simpa using shallow
        intro t ht
        obtain rfl | ht := List.mem_cons.1 ht
        · exact low
        · exact Nat.le_trans (first t ht) low

theorem descending_graft (e : Entry) {forest : List (Nat × Component)} (h : Descending forest) :
    Descending (graft e forest) :=
  List.pairwise_cons.2 ⟨le_of_mem_dropWhile_deeper h, h.sublist (List.dropWhile_sublist _)⟩

theorem descending_foldr_graft (es : List Entry) : Descending (es.foldr graft []) := by
  induction es with
  | nil => exact .nil
  | cons e es ih => exact descending_graft e ih

/-- No tree of a forest stands deeper than the first entry. -/
theorem le_depth_of_mem_foldr_graft (e : Entry) (es : List Entry) :
    ∀ t ∈ (e :: es).foldr graft [], t.1 ≤ e.depth := by
  intro t ht
  obtain rfl | ht := List.mem_cons.1 ht
  · exact Nat.le_refl _
  · exact le_of_mem_dropWhile_deeper (descending_foldr_graft es) t ht

/-- Nothing is lost: the outlines of the trees built from some entries list the entries again. -/
theorem flatMap_outline_foldr_graft (es : List Entry) (h : Stepwise (es.map (·.depth))) :
    (es.foldr graft []).flatMap (fun t => (t.2.outline t.1).map heading)
      = es.map Entry.heading := by
  induction es with
  | nil => rfl
  | cons e es ih =>
      obtain ⟨step, chain⟩ := List.isChain_cons.1 h
      have whole := ih chain
      have close : ∀ t ∈ es.foldr graft [], t.1 ≤ e.depth + 1 := by
        cases es with
        | nil => simp
        | cons e' es =>
            intro t ht
            have high := le_depth_of_mem_foldr_graft e' es t ht
            have next : e'.depth ≤ e.depth + 1 := step e'.depth (by simp)
            exact Nat.le_trans high next
      rw [List.foldr_cons]
      generalize es.foldr graft [] = forest at whole close
      -- The trees that become children all stand exactly one level below the entry.
      have children : (((forest.takeWhile (deeper e)).map (·.2)).flatMap
            (outline (e.depth + 1))).map heading
          = (forest.takeWhile (deeper e)).flatMap fun t => (t.2.outline t.1).map heading := by
        rw [List.flatMap_map, List.map_flatMap]
        refine List.flatMap_congr fun t ht => ?_
        have above : e.depth < t.1 := by simpa using List.mem_takeWhile_imp ht
        have below := close t (List.takeWhile_subset _ ht)
        rw [show t.1 = e.depth + 1 by omega]
      rw [graft_eq, List.flatMap_cons, outline, Component.outlineAll_eq_flatMap, List.map_cons,
        children, List.cons_append, ← List.flatMap_append, List.takeWhile_append_dropWhile, whole,
        List.map_cons]
      rfl

/-- A forest is determined by its outline: the tree of an outline is the tree it was taken from. -/
theorem foldr_graft_outline (c : Component) (depth : Nat) (rest : List (Nat × Component))
    (lines : ∀ t ∈ c.outline depth, 0 ≤ t.2.line) (shallow : ∀ t ∈ rest.head?, t.1 ≤ depth) :
    (((c.outline depth).map heading).map Entry.of).foldr graft rest = (depth, c) :: rest := by
  rw [List.map_map]
  induction c using Component.induction generalizing depth rest with
  | node className line attributes children ih =>
      rw [outline, Component.outlineAll_eq_flatMap] at lines
      have below : ((children.flatMap (outline (depth + 1))).map (Entry.of ∘ heading)).foldr
          graft rest = children.map (depth + 1, ·) ++ rest := by
        have lines := fun t ht => lines t (List.mem_cons_of_mem _ ht)
        clear * - ih lines shallow
        induction children with
        | nil => rfl
        | cons c cs ihcs =>
            rw [List.flatMap_cons] at lines
            rw [List.flatMap_cons, List.map_append, List.foldr_append,
              ihcs (fun c' hc' => ih c' (List.mem_cons_of_mem _ hc'))
                fun t ht => lines t (List.mem_append_right _ ht)]
            refine ih c List.mem_cons_self (depth + 1) _
              (fun t ht => lines t (List.mem_append_left _ ht)) ?_
            cases cs with
            | nil => exact fun t ht => Nat.le_succ_of_le (shallow t ht)
            | cons c' cs => simp
      have nonneg : (line.toNat : Int) = line :=
        Int.toNat_of_nonneg (lines _ List.mem_cons_self)
      have taken : (children.map (depth + 1, ·) ++ rest).takeWhile (fun t => depth < t.1)
          = children.map (depth + 1, ·) := by
        rw [List.takeWhile_append_of_pos (by simp)]
        cases rest with
        | nil => simp
        | cons t rest => simp [shallow t rfl]
      have dropped : (children.map (depth + 1, ·) ++ rest).dropWhile (fun t => depth < t.1)
          = rest := by
        rw [List.dropWhile_append_of_pos (by simp)]
        cases rest with
        | nil => rfl
        | cons t rest => simp [shallow t rfl]
      have roots : (children.map (depth + 1, ·)).map (·.2) = children := by
        rw [List.map_map]
        exact List.map_id _
      rw [outline, Component.outlineAll_eq_flatMap, List.map_cons, List.foldr_cons, below,
        graft_eq]
      simp only [Function.comp_apply, Entry.of, heading, Component.className,
        Component.attributes, Component.line, taken, dropped, nonneg, roots]

/-- Two trees without negative lines are the same if their outlines list the same headings. -/
theorem eq_of_map_heading_outline {c c' : Component} (lines : ∀ t ∈ c.outline 0, 0 ≤ t.2.line)
    (lines' : ∀ t ∈ c'.outline 0, 0 ≤ t.2.line)
    (same : (c.outline 0).map heading = (c'.outline 0).map heading) : c = c' := by
  have built := foldr_graft_outline c 0 [] lines (by simp)
  have built' := foldr_graft_outline c' 0 [] lines' (by simp)
  rw [same, built'] at built
  simpa using built.symm

end Template

end MarkupCascade
