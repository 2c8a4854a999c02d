import Mathlib
import MarkupCascade.Proofs.LogicalLine
import MarkupCascade.Proofs.Outline

/-!
The tree that indentation describes. A document is read exactly if each of its logical lines has a
whole number of levels and a declaration, and the levels begin at zero, return to it on no later
line, and grow by one at most. The outline of the tree then lists the lines.
-/

namespace MarkupCascade

open Outcome

namespace Template

open Component (Stepwise)

/-- An entry is what a logical line says. -/
structure Reads (l : LogicalLine) (e : Entry) : Prop where
  depth : l.depth = .ok e.depth
  line : e.line = l.number
  declaration : l.declaration false = .ok e.declaration

/-- A depth that an entry may have, after an entry of the depth before or as the first. -/
def Fits : Option Nat → Nat → Prop
  | none, d => d = 0
  | some before, d => 0 < d ∧ d ≤ before + 1

def Nested : Option Nat → List Nat → Prop
  | _, [] => True
  | before, d :: ds => Fits before d ∧ Nested (some d) ds

theorem fits_of_place {before : Option Nesting} {e : Entry} {here : Nesting}
    (h : place before e = .ok here) :
    Fits (before.map (·.depth)) e.depth ∧ here.depth = e.depth := by
  cases before with
  | none =>
      simp only [place] at h
      split at h <;> cases h
      exact ⟨‹e.depth = 0›, Eq.symm ‹e.depth = 0›⟩
  | some p =>
      simp only [place] at h
      split at h
      · cases h
      · split at h <;> cases h
        refine ⟨⟨by omega, ?_⟩, rfl⟩
        change e.depth ≤ p.depth + 1
        omega

theorem exists_place {before : Option Nesting} {e : Entry}
    (h : Fits (before.map (·.depth)) e.depth) : ∃ here, place before e = .ok here := by
  cases before with
  | none => exact ⟨_, if_pos h⟩
  | some p =>
      obtain ⟨positive, near⟩ : 0 < e.depth ∧ e.depth ≤ p.depth + 1 := h
      refine ⟨{ p with depth := e.depth }, ?_⟩
      simp only [place]
      rw [if_neg (by omega), if_neg (by omega)]

/-- Reading the lines of a template succeeds exactly if each line can be read by itself and every
entry fits after the one before it. -/
theorem entries_eq_ok_iff (before : Option Nesting) (ls : List LogicalLine) (es : List Entry) :
    entries before ls = .ok es
      ↔ List.Forall₂ Reads ls es ∧ Nested (before.map (·.depth)) (es.map (·.depth)) := by
  induction ls generalizing before es with
  | nil =>
      simp only [entries, Except.ok.injEq, List.forall₂_nil_left_iff]
      constructor
      · intro same
        subst same
        exact ⟨rfl, trivial⟩
      · exact fun h => h.1.symm
  | cons l ls ih =>
      simp only [entries, bind_eq_ok_iff, mapError_eq_ok_iff, pure_eq_ok_iff]
      constructor
      · intro given
        obtain ⟨depth, hdepth, d, hd, here, hplace, others, hothers, rfl⟩ := given
        obtain ⟨fits, same⟩ := fits_of_place hplace
        obtain ⟨reads, nested⟩ := (ih _ _).1 hothers
        refine ⟨.cons ⟨hdepth, rfl, hd⟩ reads, fits, ?_⟩
        rwa [Option.map_some, same] at nested
      · intro given
        obtain ⟨reads, nested⟩ := given
        cases reads with
        | @cons _ e _ others hread hreads =>
            obtain ⟨fits, nested⟩ := nested
            obtain ⟨here, hplace⟩ := exists_place fits
            have same := (fits_of_place hplace).2
            have rest := (ih (some here) others).2 ⟨hreads, by rwa [Option.map_some, same]⟩
            obtain ⟨depth, line, declaration⟩ := e
            cases hread.line
            exact ⟨depth, hread.depth, declaration, hread.declaration, here, hplace, others, rest,
              rfl⟩

/-- Depths of a single tree: the first is zero, no other is, and none is more than one greater than
the depth before it. -/
structure WellIndented (depths : List Nat) : Prop where
  root : ∀ d ∈ depths.head?, d = 0
  single : ∀ d ∈ depths.tail, 0 < d
  steps : Stepwise depths

theorem nested_some_iff (before : Nat) (ds : List Nat) :
    Nested (some before) ds ↔ (∀ d ∈ ds, 0 < d) ∧ Stepwise (before :: ds) := by
  induction ds generalizing before with
  | nil => simp [Nested]
  | cons d ds ih =>
      simp only [Nested, Fits, ih, List.forall_mem_cons, List.isChain_cons_cons]
      constructor
      · intro given
        obtain ⟨⟨positive, near⟩, others, chain⟩ := given
        exact ⟨⟨positive, others⟩, near, chain⟩
      · intro given
        obtain ⟨⟨positive, others⟩, near, chain⟩ := given
        exact ⟨⟨positive, near⟩, others, chain⟩

theorem nested_none_iff (ds : List Nat) : Nested none ds ↔ WellIndented ds := by
  cases ds with
  | nil => exact ⟨fun _ => ⟨by simp, by simp, .nil⟩, fun _ => trivial⟩
  | cons d ds =>
      rw [Nested, nested_some_iff]
      constructor
      · intro given
        obtain ⟨first, others, chain⟩ := given
        exact ⟨by simpa [Fits] using first, others, chain⟩
      · intro given
        obtain ⟨first, others, chain⟩ := given
        exact ⟨first d rfl, others, chain⟩

theorem depth_of_mem_foldr_graft (es : List Entry) :
    ∀ t ∈ es.foldr graft [], ∃ e ∈ es, t.1 = e.depth := by
  induction es with
  | nil => simp
  | cons e es ih =>
      intro t ht
      obtain rfl | ht := List.mem_cons.1 ht
      · exact ⟨e, List.mem_cons_self, rfl⟩
      · obtain ⟨e', he', same⟩ := ih t (List.dropWhile_subset _ ht)
        exact ⟨e', List.mem_cons_of_mem _ he', same⟩

/-- Entries of a single tree are the outline of one. -/
theorem exists_root (es : List Entry) (some : es ≠ []) (h : WellIndented (es.map (·.depth))) :
    ∃ root, root? es = .some root ∧ (root.outline 0).map heading = es.map Entry.heading := by
  cases es with
  | nil => exact absurd rfl some
  | cons e es =>
      have zero : e.depth = 0 := h.root _ rfl
      have whole := flatMap_outline_foldr_graft _ h.steps
      have below : (es.foldr graft []).dropWhile (deeper e) = [] := by
        rw [List.dropWhile_eq_nil_iff]
        intro t ht
        obtain ⟨e', he', same⟩ := depth_of_mem_foldr_graft es t ht
        have := h.single e'.depth (List.mem_map_of_mem he')
        simp only [decide_eq_true_eq]
        omega
      rw [List.foldr_cons, graft_eq, below, zero, List.flatMap_singleton] at whole
      refine ⟨_, ?_, whole⟩
      rw [root?, List.foldr_cons, graft_eq, below]
      rfl

/-- A component of an outline is what a logical line says. -/
structure Describes (l : LogicalLine) (t : Nat × Component) : Prop where
  depth : l.indent.length = 4 * t.1
  line : t.2.line = l.number
  declaration : Declaration.parse false l.text l.number l.indent.length
    = .ok ⟨t.2.className, t.2.attributes⟩

theorem Reads.describes {l : LogicalLine} {e : Entry} {t : Nat × Component} (h : Reads l e)
    (same : heading t = e.heading) : Describes l t := by
  simp only [heading, Entry.heading, Prod.mk.injEq] at same
  obtain ⟨depth, line, declaration⟩ := same
  refine ⟨?_, ?_, ?_⟩
  · rw [depth]
    exact (LogicalLine.depth_eq_ok_iff.1 h.depth).2
  · rw [line, h.line]
  · rw [declaration]
    exact (LogicalLine.declaration_eq_ok_iff.1 h.declaration).1

theorem forall₂_describes {ls : List LogicalLine} {es : List Entry} {ts : List (Nat × Component)}
    (h : List.Forall₂ Reads ls es) (same : ts.map heading = es.map Entry.heading) :
    List.Forall₂ Describes ls ts := by
  induction h generalizing ts with
  | nil => rw [List.map_eq_nil_iff.1 same]; exact .nil
  | cons hread _ ih =>
      obtain ⟨t, ts, rfl, here, rest⟩ := List.map_eq_cons_iff.1 same
      exact .cons (hread.describes here) (ih rest)

theorem exists_forall₂_reads (ls : List LogicalLine) (h : ∀ l ∈ ls, ∃ e, Reads l e) :
    ∃ es, List.Forall₂ Reads ls es := by
  induction ls with
  | nil => exact ⟨[], .nil⟩
  | cons l ls ih =>
      obtain ⟨e, he⟩ := h l List.mem_cons_self
      obtain ⟨es, hes⟩ := ih fun l' hl' => h l' (List.mem_cons_of_mem _ hl')
      exact ⟨e :: es, .cons he hes⟩

theorem exists_reads_of_mem {ls : List LogicalLine} {es : List Entry}
    (h : List.Forall₂ Reads ls es) : ∀ l ∈ ls, ∃ e, Reads l e := by
  induction h with
  | nil => simp
  | cons hread _ ih => exact List.forall_mem_cons.2 ⟨⟨_, hread⟩, ih⟩

/-- The depth of an entry is a quarter of the indent. -/
theorem map_depth_of_reads {ls : List LogicalLine} {es : List Entry}
    (h : List.Forall₂ Reads ls es) : es.map (·.depth) = ls.map (·.indent.length / 4) := by
  induction h with
  | nil => rfl
  | cons hread _ ih =>
      have width := (LogicalLine.depth_eq_ok_iff.1 hread.depth).2
      rw [List.map_cons, List.map_cons, ih, width, Nat.mul_div_cancel_left _ (by decide)]

theorem exists_reads_iff {l : LogicalLine} (h : LogicalLine.IsIndent l.indent.toList) :
    (∃ e, Reads l e)
      ↔ ((∀ c ∈ l.indent.toList, c = ' ') ∧ 4 ∣ l.indent.length) ∧ ∃ d,
        Declaration.parse false l.text l.number l.indent.length = .ok d
          ∧ (Attribute.plainKeys d.attributes).Nodup := by
  constructor
  · intro given
    obtain ⟨e, he⟩ := given
    obtain ⟨noTab, width⟩ := LogicalLine.depth_eq_ok_iff.1 he.depth
    refine ⟨⟨fun c hc => ?_, e.depth, width⟩, _,
      LogicalLine.declaration_eq_ok_iff.1 he.declaration⟩
    exact LogicalLine.eq_space_of_isIndent (h c hc) fun tab => noTab (tab ▸ hc)
  · intro given
    obtain ⟨⟨spaces, depth, width⟩, d, hd⟩ := given
    refine ⟨⟨depth, l.number, d⟩, LogicalLine.depth_eq_ok_iff.2 ⟨fun tab => ?_, width⟩, rfl,
      LogicalLine.declaration_eq_ok_iff.2 hd⟩
    exact absurd (spaces _ tab) (by decide)

/-- The lines of a document that is read: each has a depth and a declaration, and they are the
lines of a single tree. -/
structure Readable (s : LogicalLine.Split) : Prop where
  complete : s.unclosed = none
  nonempty : s.lines ≠ []
  indents : ∀ l ∈ s.lines, (∀ c ∈ l.indent.toList, c = ' ') ∧ 4 ∣ l.indent.length
  declarations : ∀ l ∈ s.lines, ∃ d,
    Declaration.parse false l.text l.number l.indent.length = .ok d
      ∧ (Attribute.plainKeys d.attributes).Nodup
  nesting : WellIndented (s.lines.map (·.indent.length / 4))

end Template

open Template

theorem Component.parse_eq_ok_iff {source : String} {root : Component} :
    Component.parse source = .ok root
      ↔ (LogicalLine.split source).unclosed = none ∧ ∃ es,
        List.Forall₂ Reads (LogicalLine.split source).lines es
          ∧ WellIndented (es.map (·.depth)) ∧ root? es = some root := by
  simp only [Component.parse, bind_eq_ok_iff, entries_eq_ok_iff, Option.map_none, nested_none_iff]
  constructor
  · intro given
    obtain ⟨es, ⟨reads, nested⟩, h⟩ := given
    split at h
    · exact absurd h throw_ne_ok
    · cases pure_eq_ok_iff.1 h
      exact ⟨‹_›, es, reads, nested, ‹_›⟩
    · exact absurd h throw_ne_ok
  · intro given
    obtain ⟨complete, es, reads, nested, built⟩ := given
    refine ⟨es, ⟨reads, nested⟩, ?_⟩
    rw [complete, built]
    rfl

/-- A document can be read exactly if its lines are those of a single tree, and the components of
the tree that is read are then the lines, at their depths and in their order. -/
theorem Component.parse_iff_readable_and_outline (source : String) :
    ((∃ root, Component.parse source = .ok root) ↔ Readable (LogicalLine.split source))
      ∧ ∀ root, Component.parse source = .ok root →
        List.Forall₂ Describes (LogicalLine.split source).lines (root.outline 0)
          ∧ root.walk.length = (LogicalLine.split source).lines.length
          ∧ root.depth
            = 1 + ((LogicalLine.split source).lines.map (·.indent.length / 4)).foldr max 0 := by
  have indents := LogicalLine.isIndent_of_mem_split source
  refine ⟨⟨?_, ?_⟩, ?_⟩
  · intro given
    obtain ⟨root, h⟩ := given
    obtain ⟨complete, es, reads, nested, built⟩ := Component.parse_eq_ok_iff.1 h
    have each := fun l hl => (exists_reads_iff (indents l hl)).1 (exists_reads_of_mem reads l hl)
    refine ⟨complete, ?_, fun l hl => (each l hl).1, fun l hl => (each l hl).2,
      map_depth_of_reads reads ▸ nested⟩
    intro none
    rw [none, List.forall₂_nil_left_iff] at reads
    subst reads
    cases built
  · intro h
    obtain ⟨es, reads⟩ := exists_forall₂_reads _ fun l hl =>
      (exists_reads_iff (indents l hl)).2 ⟨h.indents l hl, h.declarations l hl⟩
    have nested : WellIndented (es.map (·.depth)) := map_depth_of_reads reads ▸ h.nesting
    have some : es ≠ [] := by
      intro same
      subst same
      exact h.nonempty (List.forall₂_nil_right_iff.1 reads)
    obtain ⟨root, built, _⟩ := exists_root es some nested
    exact ⟨root, Component.parse_eq_ok_iff.2 ⟨h.complete, es, reads, nested, built⟩⟩
  · intro root h
    obtain ⟨_, es, reads, nested, built⟩ := Component.parse_eq_ok_iff.1 h
    have some : es ≠ [] := by
      intro same
      subst same
      cases built
    obtain ⟨root', built', outlined⟩ := exists_root es some nested
    cases built.symm.trans built'
    have described := forall₂_describes reads outlined
    refine ⟨described, ?_, ?_⟩
    · rw [Component.length_walk, described.length_eq]
    · have depths : (root.outline 0).map (·.1) = es.map (·.depth) := by
        have := congrArg (List.map Prod.fst) outlined
        rwa [List.map_map, List.map_map] at this
      have reach := Component.foldr_max_outline root 0 0
      rw [depths, map_depth_of_reads reads] at reach
      have : 1 ≤ root.depth := by cases root; simp [Component.depth]
      omega

theorem Component.readable_and_outline_siblings :
    Readable (LogicalLine.split "a\n    b\n    c")
      ∧ List.Forall₂ Describes (LogicalLine.split "a\n    b\n    c").lines
        [(0, .node "a" 1 [] [.node "b" 2 [] [], .node "c" 3 [] []]), (1, .node "b" 2 [] []),
          (1, .node "c" 3 [] [])] := by
  have parsed : Component.parse "a\n    b\n    c"
      = .ok (.node "a" 1 [] [.node "b" 2 [] [], .node "c" 3 [] []]) := by cbv
  obtain ⟨readable, outlined⟩ := parse_iff_readable_and_outline "a\n    b\n    c"
  exact ⟨readable.1 ⟨_, parsed⟩, (outlined _ parsed).1⟩

end MarkupCascade
