import Mathlib
import MarkupCascade.Proofs.Partition

/-!
Line ends are interchangeable. However the line ends of a document are mixed of line feeds with and
without a carriage return before them, its physical lines are the same, and so is all that is read
from them: the tree or the rules with every line number, or the fault with its place.
-/

namespace MarkupCascade

namespace LogicalLine

/-- A text of some lines, between every two of which there is a line feed, alone or behind a carriage
return. -/
inductive Joined : List (List Char) → List Char → Prop
  | none : Joined [] []
  | last {line : List Char} : Joined [line] line
  | lineFeed {line next text : List Char} {lines : List (List Char)} :
      Joined (next :: lines) text → Joined (line :: next :: lines) (line ++ '\n' :: text)
  | carriage {line next text : List Char} {lines : List (List Char)} :
      Joined (next :: lines) text → Joined (line :: next :: lines) (line ++ '\r' :: '\n' :: text)

theorem physicalLines_lineEnd {line e : List Char} (absent : '\n' ∉ line)
    (ends : EndsLine line e) (cs : List Char) :
    physicalLines (line ++ (e ++ cs)) = line :: physicalLines cs := by
  rw [physicalLines_append_lineEnd ends, physicalLines_of_no_lineFeed absent, List.singleton_append]

/-- The lines that were joined are found again, if none of them ends in a carriage return that would
go with a line feed behind it. -/
theorem physicalLines_of_joined {lines : List (List Char)} {text : List Char}
    (h : Joined lines text) (separate : ∀ line ∈ lines, Separate line) (some : lines ≠ []) :
    physicalLines text = lines := by
  induction h with
  | none => exact absurd rfl some
  | last => exact physicalLines_of_no_lineFeed (separate _ List.mem_cons_self).lineFeed
  | @lineFeed line next text lines _ ih =>
      obtain ⟨first, others⟩ := List.forall_mem_cons.1 separate
      rw [← ih others (List.cons_ne_nil _ _)]
      exact physicalLines_lineEnd first.lineFeed (.inr ⟨rfl, first.carriage⟩) text
  | @carriage line next text lines _ ih =>
      obtain ⟨first, others⟩ := List.forall_mem_cons.1 separate
      rw [← ih others (List.cons_ne_nil _ _)]
      exact physicalLines_lineEnd first.lineFeed (.inl rfl) text

/-- Without lines the text is empty, and has one line that is passed over. -/
theorem split_of_joined {lines : List (List Char)} {source : String}
    (h : Joined lines source.toList) (separate : ∀ line ∈ lines, Separate line) :
    split source = gather 1 none lines := by
  rw [split]
  generalize source.toList = text at h
  cases lines with
  | nil =>
      cases h
      rfl
  | cons line lines => rw [physicalLines_of_joined h separate (List.cons_ne_nil _ _)]

theorem separate_of_plain {line : List Char} (plain : '\r' ∉ line ∧ '\n' ∉ line) :
    Separate line := by
  refine ⟨plain.2, ?_⟩
  rintro c last rfl
  exact plain.1 (List.mem_of_getLast? last)

/-- Lines without a carriage return are joined to a logical line without one. -/
theorem StandsOn.no_carriage {l : LogicalLine} {lines above more below : List (List Char)}
    {line : List Char} (h : l.StandsOn lines above line more below)
    (plain : ∀ line ∈ lines, '\r' ∉ line) : '\r' ∉ l.indent.toList ++ l.text.toList := by
  have own : ∀ m ∈ line :: more, '\r' ∉ m := fun m inside => plain m <| by
    rw [h.whole]
    exact List.mem_append_right above (List.mem_append_left below inside)
  obtain ⟨first, others⟩ := List.forall_mem_cons.1 own
  rw [h.joined, intercalate_lineFeed, List.mem_append, not_or]
  refine ⟨first, fun later => ?_⟩
  obtain ⟨m, inside, found⟩ := List.mem_flatMap.1 later
  obtain carriage | found := List.mem_cons.1 found
  · exact absurd carriage (by decide)
  · exact others m inside found

end LogicalLine

open LogicalLine

/-- What is read from a document follows from what it is split into. -/
theorem Component.parse_of_split {s t : String} (same : split s = split t) :
    Component.parse s = Component.parse t := by
  simp only [Component.parse, same]

theorem Stylesheet.parse_of_split {s t : String} (same : split s = split t) (name : String) :
    Stylesheet.parse s name = Stylesheet.parse t name := by
  simp only [Stylesheet.parse, same]

/-- Two mixtures of line ends between the same lines are read alike, as a template and as a
stylesheet, with all lines and columns and with the same fault if there is one. The logical lines
that are found stand on runs of these lines, and there is no carriage return left in them. -/
theorem Component.parse_joined {lines : List (List Char)}
    (plain : ∀ line ∈ lines, '\r' ∉ line ∧ '\n' ∉ line) {s t : String}
    (first : Joined lines s.toList) (second : Joined lines t.toList) :
    Component.parse s = Component.parse t
      ∧ (∀ name, Stylesheet.parse s name = Stylesheet.parse t name)
      ∧ ∀ l ∈ (split s).lines, (∃ above line more below, l.StandsOn lines above line more below)
        ∧ '\r' ∉ l.indent.toList ++ l.text.toList := by
  have separate : ∀ line ∈ lines, Separate line := fun line inside =>
    separate_of_plain (plain line inside)
  have found := split_of_joined first separate
  have same : split s = split t := found.trans (split_of_joined second separate).symm
  have parts : Parts 1 lines (split s) := found ▸ parts_gather 1 lines
  refine ⟨Component.parse_of_split same, Stylesheet.parse_of_split same, fun l inside => ?_⟩
  obtain ⟨above, line, more, below, stands⟩ :=
    parts.exists_standsOn (fun line inside => (plain line inside).2) l inside
  exact ⟨⟨above, line, more, below, stands⟩,
    stands.no_carriage fun line inside => (plain line inside).1⟩

/-- A condition over two lines in a block over three, and a block with a fault in its second line:
what is read from either mixture of line ends is read from the other. -/
theorem Component.parse_joined_mixed :
    let lines := ["a \x7bk?\x7bx &&".toList, " y\x7d: 1, // c".toList, "\x7d".toList,
      "    b \x7bj: 2\x7d".toList]
    let s := "a \x7bk?\x7bx &&\n y\x7d: 1, // c\r\n\x7d\n    b \x7bj: 2\x7d"
    let t := "a \x7bk?\x7bx &&\r\n y\x7d: 1, // c\n\x7d\r\n    b \x7bj: 2\x7d"
    let broken := ["    a \x7b".toList, "  k: !\x7d".toList]
    Joined lines s.toList ∧ Joined lines t.toList
      ∧ Component.parse s = .ok (.node "a" 1 [⟨"k", .integer 1, some "x &&\n y", 1⟩]
        [.node "b" 4 [⟨"j", .integer 2, none, 4⟩] []])
      ∧ Component.parse t = .ok (.node "a" 1 [⟨"k", .integer 1, some "x &&\n y", 1⟩]
        [.node "b" 4 [⟨"j", .integer 2, none, 4⟩] []])
      ∧ Joined broken "    a \x7b\n  k: !\x7d".toList
      ∧ Joined broken "    a \x7b\r\n  k: !\x7d".toList
      ∧ Stylesheet.parse "    a \x7b\n  k: !\x7d"
        = .error (.parse ⟨.unexpectedCharacter '!', some 2, some 6⟩)
      ∧ Stylesheet.parse "    a \x7b\r\n  k: !\x7d"
        = .error (.parse ⟨.unexpectedCharacter '!', some 2, some 6⟩) := by
  intro lines s t broken
  have plain : ∀ line ∈ lines, '\r' ∉ line ∧ '\n' ∉ line := by decide
  have plain' : ∀ line ∈ broken, '\r' ∉ line ∧ '\n' ∉ line := by decide
  have spelt : s.toList = "a \x7bk?\x7bx &&".toList ++ '\n' :: (" y\x7d: 1, // c".toList
      ++ '\r' :: '\n' :: ("\x7d".toList ++ '\n' :: "    b \x7bj: 2\x7d".toList)) := by cbv
  have spelt' : t.toList = "a \x7bk?\x7bx &&".toList ++ '\r' :: '\n' :: (" y\x7d: 1, // c".toList
      ++ '\n' :: ("\x7d".toList ++ '\r' :: '\n' :: "    b \x7bj: 2\x7d".toList)) := by cbv
  have first : Joined lines s.toList := spelt ▸ .lineFeed (.carriage (.lineFeed .last))
  have second : Joined lines t.toList := spelt' ▸ .carriage (.lineFeed (.carriage .last))
  have first' : Joined broken "    a \x7b\n  k: !\x7d".toList := .lineFeed .last
  have second' : Joined broken "    a \x7b\r\n  k: !\x7d".toList := .carriage .last
  have read : Component.parse s
      = .ok (.node "a" 1 [⟨"k", .integer 1, some "x &&\n y", 1⟩]
        [.node "b" 4 [⟨"j", .integer 2, none, 4⟩] []]) := by cbv
  have refused : Stylesheet.parse "    a \x7b\n  k: !\x7d"
      = .error (.parse ⟨.unexpectedCharacter '!', some 2, some 6⟩) := by cbv
  exact ⟨first, second, read, (parse_joined plain first second).1 ▸ read, first', second', refused,
    (parse_joined plain' first' second').2.1 "<style>" ▸ refused⟩

end MarkupCascade
