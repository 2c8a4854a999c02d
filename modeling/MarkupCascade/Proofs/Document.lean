import MarkupCascade.Proofs.Numbering
import MarkupCascade.Proofs.SingleLine

/-!
What every document that is read has in common: its declarations are well-formed one by one, and
they stand in it one after the other, no line of one reaching that on which the next begins.
-/

namespace MarkupCascade

open Fragment LogicalLine

namespace Attribute

/-- The condition has no white space around it and no brace that would have closed it. -/
def IsTrimmed (a : Attribute) : Prop :=
  ∀ condition ∈ a.condition,
    Text.strip condition.toList = condition.toList ∧ '\x7d' ∉ condition.toList

end Attribute

/-- Names are names, no key is set twice without a condition, numbers can be held, and conditions
are what stands inside their braces. -/
structure Declaration.WellFormed (d : Declaration) : Prop where
  className : Token.IsName d.className.toList
  keys : ∀ a ∈ d.attributes, Token.IsName a.key.toList
  distinct : (Attribute.plainKeys d.attributes).Nodup
  inRange : d.InRange
  conditions : ∀ a ∈ d.attributes, a.IsTrimmed

namespace Fragment

variable {ls : List Lexeme}

theorem Spread.wellFormed {here : Position} {cs : List Char} (h : Spread here ls cs) :
    ∀ l ∈ ls, l.token.WellFormed := by
  induction h with
  | nil => simp
  | cons _ form _ ih => exact List.forall_mem_cons.2 ⟨form, ih⟩

theorem isName_and_isTrimmed {a : Attribute} (h : AttributeTokens a ls)
    (form : ∀ l ∈ ls, l.token.WellFormed) : Token.IsName a.key.toList ∧ a.IsTrimmed := by
  cases h with
  | plain _ =>
      rw [String.toList_ofList]
      exact ⟨form _ List.mem_cons_self, nofun⟩
  | gated _ =>
      rw [String.toList_ofList]
      refine ⟨form _ List.mem_cons_self, ?_⟩
      rintro _ ⟨⟩
      rw [String.toList_ofList]
      have brace := form _ (List.mem_cons_of_mem _ List.mem_cons_self)
      exact ⟨Text.strip_strip _, fun inside => brace (Text.mem_of_mem_strip inside)⟩

theorem exists_tokens {required : Bool} {d : Declaration} (h : DeclarationTokens required d ls) :
    ∀ a ∈ d.attributes, ∃ own, AttributeTokens a own ∧ own ⊆ ls := by
  cases h with
  | name _ => simp
  | block series =>
      intro a ha
      obtain ⟨own, each, inside⟩ := series.exists_subset a ha
      refine ⟨own, each, fun l hl => ?_⟩
      simp [inside hl]

end Fragment

theorem LogicalLine.wellFormed_of_declaration {required : Bool} {l : LogicalLine}
    {d : Declaration} (h : l.declaration required = .ok d) : d.WellFormed := by
  obtain ⟨parsed, distinct⟩ := declaration_eq_ok_iff.1 h
  obtain ⟨e, ⟨ls, spread, tokens, _⟩, inRange, rfl⟩ := Declaration.parse_eq_ok_iff.1 parsed
  have className : Token.IsName e.className.toList := Declaration.isName_of_tokens spread tokens
  have each : ∀ a ∈ e.attributes, Token.IsName a.key.toList ∧ a.IsTrimmed := by
    intro a ha
    obtain ⟨own, ownTokens, inside⟩ := exists_tokens tokens a ha
    exact isName_and_isTrimmed ownTokens fun l hl => spread.wellFormed l (inside hl)
  exact {
    className
    keys := List.forall_mem_map.2 fun a ha => (each a ha).1
    distinct
    inRange := List.forall_mem_map.2 inRange
    conditions := List.forall_mem_map.2 fun a ha => (each a ha).2 }

/-- A declaration and the line of the document that it begins on. -/
structure Placed where
  line : Int
  declaration : Declaration

def Component.placed (c : Component) : Placed := ⟨c.line, c.className, c.attributes⟩

def StyleRule.placed (r : StyleRule) : Placed := ⟨r.line, r.className, r.attributes⟩

namespace Placed

/-- The lines of the attributes, in the order of the attributes. -/
def attributeLines (p : Placed) : List Int := p.declaration.attributes.map (·.line)

/-- Declarations that are read from the lines of a document, from a first line up to a last. -/
structure InOrder (first last : Nat) (ps : List Placed) : Prop where
  wellFormed : ∀ p ∈ ps, p.declaration.WellFormed
  bounds : ∀ p ∈ ps, first ≤ p.line ∧ p.line ≤ last
  ascending : ps.Pairwise fun p q => p.line < q.line
  attributes : ∀ p ∈ ps, (p.line :: p.attributeLines).Pairwise (· ≤ ·)
  apart : ps.Pairwise fun p q => ∀ line ∈ p.attributeLines, line < q.line

/-- A declaration stands on a logical line. -/
structure Stands (required : Bool) (l : LogicalLine) (p : Placed) : Prop where
  line : p.line = l.number
  declaration : l.declaration required = .ok p.declaration

variable {required : Bool} {l : LogicalLine} {p : Placed}

theorem Stands.lines (h : Stands required l p) :
    (p.line :: p.attributeLines).Pairwise (· ≤ ·) ∧ ∀ line ∈ p.attributeLines,
      line ≤ l.lastNumber := by
  obtain ⟨parsed, _⟩ := declaration_eq_ok_iff.1 h.declaration
  obtain ⟨ascending, high⟩ := Declaration.lines_of_parse parsed
  rw [h.line]
  exact ⟨ascending, List.forall_mem_map.2 high⟩

theorem InOrder.cons {first last : Nat} {ps : List Placed} (stands : Stands required l p)
    (low : first ≤ l.number) (high : l.lastNumber ≤ last)
    (rest : InOrder (l.lastNumber + 1) last ps) : InOrder first last (p :: ps) := by
  obtain ⟨attributes, inside⟩ := stands.lines
  have within : l.number ≤ l.lastNumber := Nat.le_add_right _ _
  have below : ∀ q ∈ ps, (l.lastNumber : Int) < q.line := fun q hq => by
    have := (rest.bounds q hq).1
    omega
  have here := stands.line
  exact {
    wellFormed := List.forall_mem_cons.2
      ⟨wellFormed_of_declaration stands.declaration, rest.wellFormed⟩
    bounds := by
      refine List.forall_mem_cons.2 ⟨by omega, fun q hq => ?_⟩
      have := below q hq
      have := (rest.bounds q hq).2
      omega
    ascending := by
      refine .cons (fun q hq => ?_) rest.ascending
      have := below q hq
      omega
    attributes := List.forall_mem_cons.2 ⟨attributes, rest.attributes⟩
    apart := by
      refine .cons (fun q hq line hline => ?_) rest.apart
      exact Int.lt_of_le_of_lt (inside line hline) (below q hq) }

/-- Declarations on successive lines are in order. -/
theorem inOrder_of_stands {first last : Nat} {ls : List LogicalLine} {ps : List Placed}
    (successive : Successive last first ls) (stands : List.Forall₂ (Stands required) ls ps) :
    InOrder first last ps := by
  induction successive generalizing ps with
  | nil =>
      cases stands
      exact ⟨by simp, by simp, .nil, by simp, .nil⟩
  | cons low high _ ih =>
      cases stands with
      | cons here rest => exact .cons here low high (ih rest)

end Placed

open Placed

theorem Component.forall₂_stands {source : String} {root : Component}
    (h : Component.parse source = .ok root) :
    List.Forall₂ (Stands false) (split source).lines (root.walk.map placed) := by
  obtain ⟨_, es, reads, nested, built⟩ := Component.parse_eq_ok_iff.1 h
  have some : es ≠ [] := by
    rintro rfl
    cases built
  obtain ⟨root', built', outlined⟩ := Template.exists_root es some nested
  cases built.symm.trans built'
  have same : root.walk.map placed = es.map fun e => ⟨e.line, e.declaration⟩ := by
    have := congrArg (List.map fun h : Template.Heading => Placed.mk h.2.1 h.2.2) outlined
    rw [List.map_map, List.map_map] at this
    rw [walk, List.map_map]
    exact this
  rw [same, List.forall₂_map_right_iff]
  exact reads.imp fun l e reads => ⟨congrArg _ reads.line, reads.declaration⟩

theorem Stylesheet.forall₂_stands {source name : String} {sheet : Stylesheet}
    (h : Stylesheet.parse source name = .ok sheet) :
    List.Forall₂ (Stands true) (split source).lines (sheet.rules.map (·.placed)) := by
  obtain ⟨_, _, each⟩ := Stylesheet.parse_eq_ok_iff.1 h
  rw [List.forall₂_map_right_iff]
  refine each.imp fun l r read => ?_
  obtain ⟨d, declaration, rfl⟩ := Stylesheet.rule_eq_ok_iff.1 read
  exact ⟨rfl, declaration⟩

/-- What is read from a document is well-formed, and stands on its physical lines in order. -/
theorem Placed.inOrder_of_parse (source : String) :
    (∀ root, Component.parse source = .ok root →
        InOrder 1 (physicalLines source.toList).length (root.walk.map (·.placed)))
      ∧ ∀ name sheet, Stylesheet.parse source name = .ok sheet →
        InOrder 1 (physicalLines source.toList).length (sheet.rules.map (·.placed)) :=
  ⟨fun _ h => inOrder_of_stands (successive_split source) (Component.forall₂_stands h),
    fun _ _ h => inOrder_of_stands (successive_split source) (Stylesheet.forall₂_stands h)⟩

/-- A block over two lines with a component below it, and a rule behind a comment. -/
theorem Placed.inOrder_of_parse_twoLines :
    InOrder 1 3 [⟨1, "a", [⟨"k", .integer 1, some "x", 1⟩, ⟨"k", .percentage 2, none, 2⟩]⟩,
        ⟨3, "b", []⟩]
      ∧ InOrder 1 2 [⟨2, "c", [⟨"k", .default, none, 2⟩]⟩] := by
  have root : Component.parse "a \x7b k?\x7b x \x7d: 1,\n k: 2%\x7d\n    b"
      = .ok (.node "a" 1 [⟨"k", .integer 1, some "x", 1⟩, ⟨"k", .percentage 2, none, 2⟩]
        [.node "b" 3 [] []]) := by cbv
  have sheet : Stylesheet.parse "// \x7d\nc \x7bk: default\x7d" "s"
      = .ok ⟨[⟨"c", [⟨"k", .default, none, 2⟩], 2⟩], "s"⟩ := by cbv
  exact ⟨(inOrder_of_parse _).1 _ root, (inOrder_of_parse _).2 _ _ sheet⟩

end MarkupCascade
