import MarkupCascade.CommandLine
import MarkupCascade.Proofs.Closing
import MarkupCascade.Proofs.Indentation
import MarkupCascade.Proofs.Spelling

/-!
Trees written as markup, and that they are read as the same trees. The line of a component is its
declaration behind an indent, so it is a logical line of its own and gives the declaration back;
the indents give back the tree.
-/

namespace MarkupCascade

/-- What the line of a component says. -/
def Component.declaration (c : Component) : Declaration := ⟨c.className, c.attributes⟩

namespace Declaration

open LogicalLine

/-! The line of a declaration that is written behind an indent of some levels. -/

/-- Four spaces to a level. -/
def indent (depth : Nat) : List Char := List.replicate (4 * depth) ' '

theorem isIndent_indent (depth : Nat) : IsIndent (indent depth) := by
  intro c hc
  rw [List.eq_of_mem_replicate hc]
  rfl

variable {d : Declaration}

theorem head_spell (h : d.Printable) : ∃ c ∈ d.spell.head?, Token.isNameStart c = true := by
  have isName := h.className
  rw [spell]
  cases text : d.className.toList with
  | nil =>
      rw [text] at isName
      exact isName.elim
  | cons c cs =>
      rw [text] at isName
      exact ⟨c, rfl, isName.1⟩

theorem separate_spell (h : d.Printable) (depth : Nat) : Separate (indent depth ++ d.spell) := by
  obtain ⟨ls, tokens, printed⟩ := exists_printed h
  refine ⟨by simp [indent, printed.no_lineFeed], ?_⟩
  intro c last same
  subst same
  obtain ⟨className, attributes⟩ := d
  cases attributes with
  | nil =>
      have inside := List.mem_of_getLast? last
      simp only [spell, spellBlock, List.isEmpty_nil, if_true, List.append_nil, indent,
        List.mem_append] at inside
      obtain blank | name := inside
      · exact absurd (List.eq_of_mem_replicate blank) (by decide)
      · exact absurd (Token.isNameChar_of_isName h.className _ name) (by decide)
  | cons a attributes =>
      simp [spell, spellBlock, List.getLast?_append, List.getLast?_cons] at last

theorem braceBalance_spell (h : d.Printable) : braceBalance .code d.spell = 0 := by
  obtain ⟨ls, tokens, printed⟩ := exists_printed h
  rw [printed.braceBalance_eq, Fragment.balance_declaration tokens]

theorem gather_spell (h : d.Printable) (depth number : Nat) (rest : List (List Char)) :
    gather number none ((indent depth ++ d.spell) :: rest)
      = (gather (number + 1) none rest).prepend
          [⟨number, String.ofList (indent depth), String.ofList d.spell⟩] := by
  have closed : Closes 0 [d.spell] := .last (by rw [braceBalance_spell h]; decide)
  have gathered := gather_none (isIndent_indent depth) (head_spell h) closed number rest
  rwa [List.intercalate_singleton] at gathered

end Declaration

namespace CommandLine

theorem toList_blockText (attributes : List Attribute) :
    (blockText attributes).toList = Declaration.spellBlock attributes := by
  simp only [blockText, Declaration.spellBlock]
  split
  · rfl
  · rw [String.toList_append, String.toList_append, String.toList_intercalate, List.map_map,
      List.map_congr_left (g := Attribute.spell)]
    · simp
    · intro a _
      cases h : a.condition <;> simp [Attribute.spell, Attribute.spellGate, Value.text, h]

theorem toList_markupLine (depth : Nat) (c : Component) :
    (markupLine depth c).toList = Declaration.indent depth ++ c.declaration.spell := by
  simp [markupLine, indentation, toList_blockText, Declaration.indent, Declaration.spell,
    Component.declaration]

end CommandLine

namespace Component

mutual

/-- A tree without its lines. -/
def unlined : Component → Component
  | .node className _ attributes children =>
    .node className 0 (attributes.map fun a => { a with line := 0 }) (unlinedAll children)

def unlinedAll : List Component → List Component
  | [] => []
  | c :: cs => unlined c :: unlinedAll cs

end

theorem unlinedAll_eq_map (cs : List Component) : unlinedAll cs = cs.map unlined := by
  induction cs with
  | nil => rfl
  | cons c cs ih => rw [unlinedAll, ih, List.map_cons]

theorem outline_unlined (c : Component) (depth : Nat) :
    c.unlined.outline depth = (c.outline depth).map fun t => (t.1, t.2.unlined) := by
  induction c using induction generalizing depth with
  | node className line attributes children ih =>
      rw [outline, outlineAll_eq_flatMap, List.map_cons, List.map_flatMap, unlined, outline,
        outlineAll_eq_flatMap, unlinedAll_eq_map, List.flatMap_map]
      have below := List.flatMap_congr fun c hc => ih c hc (depth + 1)
      rw [below]

theorem line_unlined (c : Component) : c.unlined.line = 0 := by
  cases c
  rw [unlined, line]

theorem line_of_mem_outline_unlined (c : Component) :
    ∀ t ∈ c.unlined.outline 0, t.2.line = 0 := by
  intro t ht
  rw [outline_unlined] at ht
  obtain ⟨t, _, rfl⟩ := List.mem_map.1 ht
  exact line_unlined t.2

/-- A tree that is written without loss. -/
def Printable (root : Component) : Prop := ∀ c ∈ root.walk, c.declaration.Printable

end Component

namespace Template

/-- A heading without its lines. -/
def Heading.unlined (h : Heading) : Heading := (h.1, 0, h.2.2.onLine 0)

theorem heading_unlined (t : Nat × Component) :
    heading (t.1, t.2.unlined) = Heading.unlined (heading t) := by
  obtain ⟨depth, c⟩ := t
  cases c
  rw [Component.unlined]
  rfl

/-- Trees that list the same headings but for lines are the same but for lines. -/
theorem unlined_eq_of_map_heading {c c' : Component}
    (same : ((c.outline 0).map heading).map Heading.unlined
      = ((c'.outline 0).map heading).map Heading.unlined) : c.unlined = c'.unlined := by
  refine eq_of_map_heading_outline
    (fun t ht => Int.le_of_eq (c.line_of_mem_outline_unlined t ht).symm)
    (fun t ht => Int.le_of_eq (c'.line_of_mem_outline_unlined t ht).symm) ?_
  simpa only [Component.outline_unlined, List.map_map, Function.comp_def, heading_unlined]
    using same

/-- What the line of a component says, when it is a given line of the document. -/
def Entry.written (t : (Nat × Component) × Nat) : Entry :=
  ⟨t.1.1, t.2, t.1.2.declaration.onLine t.2⟩

/-- The logical line that is written for a component. -/
def writtenLine (t : (Nat × Component) × Nat) : LogicalLine :=
  ⟨t.2, String.ofList (Declaration.indent t.1.1), String.ofList t.1.2.declaration.spell⟩

theorem gather_lines (number : Nat) (ts : List (Nat × Component))
    (h : ∀ t ∈ ts, t.2.declaration.Printable) :
    LogicalLine.gather number none
        (ts.map fun t => Declaration.indent t.1 ++ t.2.declaration.spell)
      = ⟨(ts.zipIdx number).map writtenLine, none⟩ := by
  induction ts generalizing number with
  | nil => rfl
  | cons t ts ih =>
      obtain ⟨first, others⟩ := List.forall_mem_cons.1 h
      rw [List.map_cons, Declaration.gather_spell first, ih (number + 1) others, List.zipIdx_cons,
        List.map_cons]
      rfl

theorem reads_written {t : (Nat × Component) × Nat} (h : t.1.2.declaration.Printable) :
    Reads (writtenLine t) (Entry.written t) := by
  refine ⟨LogicalLine.depth_eq_ok_iff.2 ?_, rfl, LogicalLine.declaration_eq_ok_iff.2 ?_⟩
  · constructor
    · simp [writtenLine, Declaration.indent]
    · simp [writtenLine, Declaration.indent, Entry.written]
  · constructor
    · exact Declaration.parse_spell h _ _
    · exact (Attribute.plainKeys_map_line _ _).symm ▸ h.keys

theorem wellIndented_outline (root : Component) :
    WellIndented ((root.outline 0).map (·.1)) := by
  refine ⟨?_, ?_, Component.stepwise_outline root 0⟩
  · simp [Component.head_outline]
  · intro d hd
    rw [← List.map_tail] at hd
    obtain ⟨t, ht, rfl⟩ := List.mem_map.1 hd
    exact Component.lt_depth_of_mem_tail_outline root 0 t ht

end Template

namespace CommandLine

open Template

/-- The lines of a tree as markup. -/
def markupLines (root : Component) : List String :=
  (root.outline 0).map fun t => markupLine t.1 t.2

/-- A tree as a document. -/
def markup (root : Component) : String := "\n".intercalate (markupLines root)

theorem treeLines_eq (root : Component) :
    treeLines root
      = (markupLines root).zipWith (fun line c => line ++ s!"  (line {c.line})") root.walk := by
  rw [markupLines, Component.walk, List.zipWith_map, List.zipWith_self]
  rfl

theorem split_markup {root : Component} (h : root.Printable) :
    LogicalLine.split (markup root) = ⟨((root.outline 0).zipIdx 1).map writtenLine, none⟩ := by
  have printable : ∀ t ∈ root.outline 0, t.2.declaration.Printable :=
    fun t ht => h t.2 (List.mem_map_of_mem ht)
  have joined : (markup root).toList = ['\n'].intercalate
      ((root.outline 0).map fun t => Declaration.indent t.1 ++ t.2.declaration.spell) := by
    simp [markup, markupLines, String.toList_intercalate, toList_markupLine, Function.comp_def]
  rw [LogicalLine.split, joined, LogicalLine.physicalLines_intercalate, gather_lines 1 _ printable]
  · cases root
    simp [Component.outline]
  · intro line hline
    obtain ⟨t, ht, rfl⟩ := List.mem_map.1 hline
    exact Declaration.separate_spell (printable t ht) t.1

/-- A tree read from the lines of another: it lists the same components, numbered from one. -/
def Reread (root t : Component) : Prop :=
  (t.outline 0).map heading = ((root.outline 0).zipIdx 1).map fun e => (Entry.written e).heading

theorem exists_parse_markup {root : Component} (h : root.Printable) :
    ∃ t, Component.parse (markup root) = .ok t ∧ Reread root t := by
  have reads : List.Forall₂ Reads (((root.outline 0).zipIdx 1).map writtenLine)
      (((root.outline 0).zipIdx 1).map Entry.written) := by
    rw [List.forall₂_map_left_iff, List.forall₂_map_right_iff, List.forall₂_same]
    intro e he
    apply reads_written
    exact h e.1.2 (List.mem_map_of_mem (List.fst_mem_of_mem_zipIdx he))
  have nested : WellIndented ((((root.outline 0).zipIdx 1).map Entry.written).map (·.depth)) := by
    have depths := wellIndented_outline root
    rw [← List.zipIdx_map_fst 1 (root.outline 0), List.map_map] at depths
    rwa [List.map_map]
  have some : ((root.outline 0).zipIdx 1).map Entry.written ≠ [] := by
    cases root
    simp [Component.outline]
  obtain ⟨t, built, outlined⟩ := exists_root _ some nested
  refine ⟨t, Component.parse_eq_ok_iff.2 ?_, by rwa [List.map_map] at outlined⟩
  rw [split_markup h]
  exact ⟨rfl, _, reads, nested, built⟩

theorem Reread.unlined_eq {root t : Component} (h : Reread root t) : t.unlined = root.unlined := by
  apply unlined_eq_of_map_heading
  have numbered := congrArg (List.map (Heading.unlined ∘ heading))
    (List.zipIdx_map_fst 1 (root.outline 0))
  rw [h, List.map_map, List.map_map, ← numbered, List.map_map]
  apply List.map_congr_left
  intro e _
  exact congrArg ((e.1.1, 0, ·)) (Declaration.onLine_onLine 0 e.2 e.1.2.declaration)

theorem Reread.line_eq {root t : Component} (h : Reread root t) {k : Nat} {c : Component}
    (hc : t.walk[k]? = some c) : c.line = k + 1 ∧ ∀ a ∈ c.attributes, a.line = k + 1 := by
  rw [Component.walk, List.getElem?_map] at hc
  obtain ⟨⟨depth, c⟩, here, rfl⟩ := Option.map_eq_some_iff.1 hc
  have listed := congrArg (·[k]?) h
  simp only [List.getElem?_map, here, List.getElem?_zipIdx, Option.map_some] at listed
  obtain ⟨e, numbered, same⟩ := Option.map_eq_some_iff.1 listed.symm
  obtain ⟨source, _, rfl⟩ := Option.map_eq_some_iff.1 numbered
  simp only [heading, Entry.heading, Entry.written, Prod.mk.injEq, Declaration.onLine,
    Declaration.mk.injEq] at same
  obtain ⟨_, line, _, attributes⟩ := same
  constructor
  · rw [← line]
    omega
  · intro a ha
    rw [← attributes] at ha
    obtain ⟨b, _, rfl⟩ := List.mem_map.1 ha
    simp only
    omega

end CommandLine

open Template CommandLine

/-- A tree that is written as markup is read as the same tree, each component on the line it was
written to. -/
theorem Component.parse_markup (root : Component) (h : root.Printable) :
    treeLines root
        = (markupLines root).zipWith (fun line c => line ++ s!"  (line {c.line})") root.walk
      ∧ ∃ t, Component.parse (markup root) = .ok t ∧ t.unlined = root.unlined
        ∧ ∀ (k : Nat) c, t.walk[k]? = some c →
          c.line = k + 1 ∧ ∀ a ∈ c.attributes, a.line = k + 1 := by
  obtain ⟨t, parsed, reread⟩ := exists_parse_markup h
  exact ⟨treeLines_eq root, t, parsed, reread.unlined_eq, fun _ _ hc => reread.line_eq hc⟩

/-- A tree with a quote, braces, slashes and a carriage return in a string. -/
def Component.panel : Component :=
  .node "Panel" 7
    [⟨"on", .string "\x7d\"\\\r\n//\x7b", some "a = 1", 3⟩,
      ⟨"on", .tuple [.percentage (-7), .default], none, 3⟩]
    [.node "Row" 8 [] [.node "default" 8 [] []], .node "Row" 9 [] []]

theorem Component.parse_markup_panel :
    panel.Printable
      ∧ ∃ t, Component.parse (markup panel) = .ok t ∧ t.unlined = panel.unlined := by
  have fits : Fragment.Fits (-7) := ⟨by decide, by decide⟩
  have bare {name : String} (line : Int) (children : List Component)
      (h : Token.IsName name.toList) :
      (Component.node name line [] children).declaration.Printable :=
    ⟨h, by simp [declaration, attributes], by simp [declaration, attributes, Attribute.plainKeys]⟩
  have printable : panel.Printable := by
    refine List.forall_mem_cons.2 ⟨⟨⟨rfl, List.all_eq_true.1 rfl⟩, ?_, by decide⟩,
      List.forall_mem_cons.2 ⟨bare _ _ ⟨rfl, List.all_eq_true.1 rfl⟩,
      List.forall_mem_cons.2 ⟨bare _ _ ⟨rfl, List.all_eq_true.1 rfl⟩,
      List.forall_mem_singleton.2 (bare _ _ ⟨rfl, List.all_eq_true.1 rfl⟩)⟩⟩⟩
    refine List.forall_mem_cons.2 ⟨⟨⟨rfl, List.all_eq_true.1 rfl⟩, .string, ?_⟩,
      List.forall_mem_singleton.2 ⟨⟨rfl, List.all_eq_true.1 rfl⟩, .tuple ?_, by simp⟩⟩
    · rintro _ ⟨⟩
      exact ⟨by decide, by decide, by decide, by decide, by decide, by decide⟩
    · exact List.forall_mem_cons.2 ⟨.percentage fits, List.forall_mem_singleton.2 .default⟩
  obtain ⟨_, t, parsed, same, _⟩ := parse_markup panel printable
  exact ⟨printable, t, parsed, same⟩

end MarkupCascade
