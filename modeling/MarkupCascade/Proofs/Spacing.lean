import MarkupCascade.Proofs.Insertion

/-!
Lines between the components of a template that say nothing. They are passed over wherever no block
is open, so to put some in changes no more than the numbers of the lines below them: those of the
nodes and the attributes or, where the template is refused, the one that the error names.
-/

namespace MarkupCascade

open Outcome LogicalLine

namespace LogicalLine

/-- The text of some lines, with line feeds between them. -/
def document (lines : List (List Char)) : String := String.ofList (['\n'].intercalate lines)

/-- A line as it is found again in a text. A carriage return at its end goes with the line feed. -/
def FoundAs (line found : List Char) : Prop := line = found ∨ line = found ++ ['\r']

theorem FoundAs.eq_of_separate {line found : List Char} (h : FoundAs line found)
    (separate : Separate line) : found = line := by
  obtain rfl | rfl := h
  · rfl
  · exact absurd rfl (separate.carriage '\r' (by simp))

theorem FoundAs.isIgnored {line found : List Char} (h : FoundAs line found)
    (ignored : isIgnored line = true) : isIgnored found = true := by
  obtain rfl | rfl := h
  · exact ignored
  · rwa [LogicalLine.isIgnored, Text.strip_concat_blank rfl] at ignored

theorem forall₂_physicalLines_intercalate {lines : List (List Char)} (nonempty : lines ≠ [])
    (h : ∀ line ∈ lines, '\n' ∉ line) :
    List.Forall₂ FoundAs lines (physicalLines (['\n'].intercalate lines)) := by
  induction lines with
  | nil => exact absurd rfl nonempty
  | cons line lines ih =>
      obtain ⟨first, others⟩ := List.forall_mem_cons.1 h
      cases lines with
      | nil =>
          rw [List.intercalate_singleton, physicalLines_of_no_lineFeed first]
          exact .cons (.inl rfl) .nil
      | cons line' lines =>
          have rest := ih (List.cons_ne_nil _ _) others
          rw [List.intercalate_cons_cons, List.append_assoc]
          by_cases carriage : line.getLast? = some '\r'
          · obtain ⟨front, rfl⟩ := List.getLast?_eq_some_iff.1 carriage
            have absent : '\n' ∉ front := fun inside => first (List.mem_append_left _ inside)
            have ends : EndsLine front ['\r', '\n'] := .inl rfl
            have found := physicalLines_append_lineEnd ends (['\n'].intercalate (line' :: lines))
            rw [physicalLines_of_no_lineFeed absent] at found
            rw [List.append_assoc]
            exact found ▸ .cons (.inr rfl) rest
          · have ends : EndsLine line ['\n'] :=
              .inr ⟨rfl, fun c last same => carriage (same ▸ last)⟩
            rw [physicalLines_append_lineEnd ends, physicalLines_of_no_lineFeed first]
            exact .cons (.inl rfl) rest

/-- The empty text has a line, but one that is passed over. -/
theorem exists_split_document {lines : List (List Char)} (h : ∀ line ∈ lines, '\n' ∉ line) :
    ∃ found, List.Forall₂ FoundAs lines found ∧ split (document lines) = gather 1 none found := by
  cases lines with
  | nil => exact ⟨[], .nil, rfl⟩
  | cons line lines =>
      refine ⟨_, forall₂_physicalLines_intercalate (List.cons_ne_nil _ _) h, ?_⟩
      rw [split, document, String.toList_ofList]

theorem eq_of_forall₂_foundAs {lines found : List (List Char)}
    (h : List.Forall₂ FoundAs lines found) (separate : ∀ line ∈ lines, Separate line) :
    found = lines := by
  induction h with
  | nil => rfl
  | cons first _ ih =>
      obtain ⟨here, others⟩ := List.forall_mem_cons.1 separate
      rw [first.eq_of_separate here, ih others]

theorem forall_isIgnored_of_forall₂_foundAs {lines found : List (List Char)}
    (h : List.Forall₂ FoundAs lines found) (ignored : ∀ line ∈ lines, isIgnored line = true) :
    ∀ line ∈ found, isIgnored line = true := by
  induction h with
  | nil => exact ignored
  | cons first _ ih =>
      obtain ⟨here, others⟩ := List.forall_mem_cons.1 ignored
      exact List.forall_mem_cons.2 ⟨first.isIgnored here, ih others⟩

theorem split_document {lines : List (List Char)} (separate : ∀ line ∈ lines, Separate line) :
    split (document lines) = gather 1 none lines := by
  obtain ⟨found, each, same⟩ := exists_split_document fun line h => (separate line h).lineFeed
  rw [same, eq_of_forall₂_foundAs each separate]

theorem exists_of_forall₂_append {as bs found : List (List Char)}
    (h : List.Forall₂ FoundAs (as ++ bs) found) :
    ∃ front back, found = front ++ back ∧ List.Forall₂ FoundAs as front
      ∧ List.Forall₂ FoundAs bs back := by
  induction as generalizing found with
  | nil => exact ⟨[], found, rfl, .nil, h⟩
  | cons a as ih =>
      obtain ⟨line, rest, first, others, rfl⟩ := List.forall₂_cons_left_iff.1 h
      obtain ⟨front, back, rfl, each, each'⟩ := ih others
      exact ⟨line :: front, back, rfl, .cons first each, each'⟩

/-- Lines that are passed over only count. -/
theorem gather_allIgnored {lines : List (List Char)} (h : ∀ line ∈ lines, isIgnored line = true)
    (number : Nat) (rest : List (List Char)) :
    gather number none (lines ++ rest) = gather (number + lines.length) none rest := by
  induction lines generalizing number with
  | nil => rfl
  | cons line lines ih =>
      obtain ⟨first, others⟩ := List.forall_mem_cons.1 h
      rw [List.cons_append, gather_ignored first, ih others, List.length_cons, Nat.add_assoc,
        Nat.add_comm 1]

theorem Successive.lastNumber_le {first last : Nat} {ls : List LogicalLine}
    (h : Successive last first ls) : ∀ l ∈ ls, l.lastNumber ≤ last := by
  induction h with
  | nil => simp
  | cons _ high _ ih => exact List.forall_mem_cons.2 ⟨high, ih⟩

theorem lastNumber_le_of_mem_gather {lines : List (List Char)} (h : ∀ line ∈ lines, '\n' ∉ line) :
    ∀ l ∈ (gather 1 none lines).lines, l.lastNumber ≤ lines.length := by
  refine Successive.lastNumber_le (successive_gather 1 none ?_ (Nat.add_comm _ _) h)
  rintro _ ⟨⟩

/-- Of what is found in two parts of a document, only the second part is moved. -/
theorem Split.movedBelow_prepend {n : Nat} {ls : List LogicalLine} {s : Split}
    (above : ∀ l ∈ ls, l.lastNumber ≤ n) (below : ∀ l ∈ s.lines, n < l.number)
    (unclosed : ∀ m ∈ s.unclosed, n < m) (k : Nat) :
    (s.prepend ls).movedBelow n k = (s.movedBy k).prepend ls := by
  have kept : ls.map (·.movedBelow n k) = ls :=
    (List.map_congr_left fun l hl => movedBelow_of_le (above l hl) k).trans (List.map_id' ls)
  have moved : s.lines.map (·.movedBelow n k) = s.lines.map (·.movedBy k) :=
    List.map_congr_left fun l hl => movedBelow_of_lt (below l hl) k
  have opened : s.unclosed.map (numberBelow n k) = s.unclosed.map (· + k) :=
    Option.map_congr fun m hm => numberBelow_of_lt (unclosed m hm) k
  simp only [prepend, movedBelow, movedBy, List.map_append, kept, moved, opened]

theorem split_spaced {above idle below : List (List Char)}
    (separate : ∀ line ∈ above ++ below, Separate line)
    (silent : ∀ line ∈ idle, '\n' ∉ line ∧ Stylesheet.IsIdle line)
    (complete : (split (document above)).unclosed = none) :
    (∀ l ∈ (split (document (above ++ below))).lines, l.Clear above.length)
      ∧ split (document (above ++ idle ++ below))
        = (split (document (above ++ below))).movedBelow above.length idle.length := by
  obtain ⟨first, second⟩ := List.forall_mem_append.1 separate
  have closed : stillOpen 1 none above = none := by
    rw [split_document first, unclosed_gather] at complete
    exact Option.map_eq_none_iff.1 complete
  obtain ⟨found, each, spaced⟩ := @exists_split_document (above ++ idle ++ below) <| by
    refine List.forall_mem_append.2 ⟨List.forall_mem_append.2 ⟨?_, ?_⟩, ?_⟩
    · exact fun line h => (first line h).lineFeed
    · exact fun line h => (silent line h).1
    · exact fun line h => (second line h).lineFeed
  obtain ⟨_, below', rfl, each, eachBelow⟩ := exists_of_forall₂_append each
  obtain ⟨above', idle', rfl, eachAbove, eachIdle⟩ := exists_of_forall₂_append each
  rw [eq_of_forall₂_foundAs eachAbove first, eq_of_forall₂_foundAs eachBelow second] at spaced
  have ignored := forall_isIgnored_of_forall₂_foundAs eachIdle fun line h =>
    Stylesheet.isIgnored_of_isIdle (silent line h).2
  -- What is found below is counted on from where it begins.
  have start : 1 + above.length + idle'.length = 1 + above.length + idle.length := by
    rw [eachIdle.length_eq]
  have moved := gather_movedBy idle.length (1 + above.length) none below
  rw [Option.map_none, ← start] at moved
  have noneOpen : ∀ o ∈ (none : Option Open), above.length < o.number := by rintro _ ⟨⟩
  obtain ⟨later, unclosed⟩ :=
    le_number_gather below (Nat.le_of_eq (Nat.add_comm above.length 1)) noneOpen
  have earlier := lastNumber_le_of_mem_gather fun line h => (first line h).lineFeed
  rw [split_document separate, spaced, List.append_assoc, gather_append, gather_append, closed,
    gather_allIgnored ignored, moved]
  exact ⟨List.forall_mem_append.2 ⟨fun l h => .inl (earlier l h), fun l h => .inr (later l h)⟩,
    (Split.movedBelow_prepend earlier later unclosed _).symm⟩

end LogicalLine

/-- Lines that are put in between two parts of a template, where no block is open at the end of the
first, and that hold white space and comments alone: the template is the one it was or is refused
for the fault that it was refused for, and everything that is below the first part is said to stand
as many lines further down. -/
theorem Component.parse_spaced {above idle below : List (List Char)}
    (separate : ∀ line ∈ above ++ below, Separate line)
    (silent : ∀ line ∈ idle, '\n' ∉ line ∧ Stylesheet.IsIdle line)
    (complete : (split (document above)).unclosed = none) :
    Component.parse (document (above ++ idle ++ below))
      = bimap (·.movedBelow above.length idle.length) (·.movedBelow above.length idle.length)
          (Component.parse (document (above ++ below))) := by
  obtain ⟨clear, moved⟩ := split_spaced separate silent complete
  exact parse_movedBelow clear moved

/-- An ideographic space and a comment with a brace in it, put in between a block over two lines and
a component below it; and an empty line in front of two roots. -/
theorem Component.parse_spaced_twoLines :
    let block := ["a \x7bk: 1,".toList, "j: 2\x7d".toList]
    let idle := ["\u3000".toList, "\t// \x7b".toList]
    let child := ["    b \x7bk: 3\x7d".toList]
    let roots := ["a".toList, "b".toList]
    Component.parse (document (block ++ child))
        = .ok (.node "a" 1 [⟨"k", .integer 1, none, 1⟩, ⟨"j", .integer 2, none, 2⟩]
          [.node "b" 3 [⟨"k", .integer 3, none, 3⟩] []])
      ∧ Component.parse (document (block ++ idle ++ child))
        = .ok (.node "a" 1 [⟨"k", .integer 1, none, 1⟩, ⟨"j", .integer 2, none, 2⟩]
          [.node "b" 5 [⟨"k", .integer 3, none, 5⟩] []])
      ∧ Component.parse (document ([] ++ roots))
        = .error (.parse ⟨.secondRoot "b" "a" 1, some 2, none⟩)
      ∧ Component.parse (document ([] ++ [[]] ++ roots))
        = .error (.parse ⟨.secondRoot "b" "a" 2, some 3, none⟩) := by
  intro block idle child roots
  have read : Component.parse (document (block ++ child))
      = .ok (.node "a" 1 [⟨"k", .integer 1, none, 1⟩, ⟨"j", .integer 2, none, 2⟩]
        [.node "b" 3 [⟨"k", .integer 3, none, 3⟩] []]) := by cbv
  have refused : Component.parse (document ([] ++ roots))
      = .error (.parse ⟨.secondRoot "b" "a" 1, some 2, none⟩) := by cbv
  have separate : ∀ line ∈ block ++ child, Separate line := by
    refine List.forall_mem_cons.2 ⟨⟨by decide, by simp⟩, List.forall_mem_cons.2 ⟨?_, ?_⟩⟩
    · exact ⟨by decide, by simp⟩
    · exact List.forall_mem_singleton.2 ⟨by decide, by simp⟩
  have separate' : ∀ line ∈ [] ++ roots, Separate line :=
    List.forall_mem_cons.2 ⟨⟨by decide, by simp⟩, List.forall_mem_singleton.2 ⟨by decide, by simp⟩⟩
  have blank : Stylesheet.IsIdle "\u3000".toList :=
    ⟨_, [], rfl, List.forall_mem_singleton.2 (by decide), .inl rfl⟩
  have comment : Stylesheet.IsIdle "\t// \x7b".toList :=
    ⟨['\t'], _, rfl, List.forall_mem_singleton.2 (by decide), .inr ⟨[' ', '\x7b'], rfl⟩⟩
  have silent : ∀ line ∈ idle, '\n' ∉ line ∧ Stylesheet.IsIdle line :=
    List.forall_mem_cons.2 ⟨⟨by decide, blank⟩, List.forall_mem_singleton.2 ⟨by decide, comment⟩⟩
  have silent' : ∀ line ∈ [[]], '\n' ∉ line ∧ Stylesheet.IsIdle line :=
    List.forall_mem_singleton.2 ⟨by decide, [], [], rfl, List.forall_mem_nil _, .inl rfl⟩
  have spaced := parse_spaced separate silent (by cbv)
  have moved := parse_spaced separate' silent' (by cbv)
  rw [read] at spaced
  rw [refused] at moved
  exact ⟨read, spaced, refused, moved⟩

end MarkupCascade
