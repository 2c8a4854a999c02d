import MarkupCascade.Proofs.Gathering
import MarkupCascade.Proofs.Partition

/-!
What stands at a place in a logical line. It stands on a run of physical lines, which joined by line
feeds are its indent with its text behind it. So every place in the text is a place in the document,
on one of these lines and as many columns in as are counted for it.
-/

namespace MarkupCascade

/-- The first line of a text. -/
def firstLine (cs : List Char) : List Char := cs.takeWhile (· != '\n')

theorem firstLine_cons {c : Char} (h : c ≠ '\n') (cs : List Char) :
    firstLine (c :: cs) = c :: firstLine cs := by
  rw [firstLine, List.takeWhile_cons_of_pos (by simpa using h)]
  rfl

theorem firstLine_append {line : List Char} (h : '\n' ∉ line) (cs : List Char) :
    firstLine (line ++ cs) = line ++ firstLine cs := by
  induction line with
  | nil => rfl
  | cons c line ih =>
      obtain ⟨other, others⟩ := not_or.1 (List.mem_cons.not.1 h)
      rw [List.cons_append, firstLine_cons (Ne.symm other), ih others, List.cons_append]

theorem firstLine_of_no_lineFeed {line : List Char} (h : '\n' ∉ line) : firstLine line = line := by
  have whole := firstLine_append h []
  change _ = line ++ [] at whole
  rwa [List.append_nil] at whole

theorem firstLine_append_lineFeed {line : List Char} (h : '\n' ∉ line) (cs : List Char) :
    firstLine (line ++ '\n' :: cs) = line := by
  rw [firstLine_append h]
  exact List.append_nil line

/-- More text goes on in the first line or behind it. -/
theorem firstLine_prefix_append (as bs : List Char) : firstLine as <+: firstLine (as ++ bs) := by
  induction as with
  | nil => exact List.nil_prefix
  | cons c as ih =>
      by_cases lineFeed : c = '\n'
      · subst lineFeed
        exact List.nil_prefix
      · rw [List.cons_append, firstLine_cons lineFeed, firstLine_cons lineFeed]
        exact List.cons_prefix_cons.2 ⟨rfl, ih⟩

namespace Position

theorem after_cons (p : Position) (c : Char) (cs : List Char) :
    p.after (c :: cs) = (p.next c).after cs := rfl

theorem after_of_no_lineFeed {line : List Char} (h : '\n' ∉ line) (p : Position) :
    p.after line = ⟨p.line, p.column + line.length⟩ := by
  induction line generalizing p with
  | nil => rfl
  | cons c line ih =>
      obtain ⟨other, others⟩ := not_or.1 (List.mem_cons.not.1 h)
      have here : p.next c = ⟨p.line, p.column + 1⟩ := if_neg (by simpa using Ne.symm other)
      rw [after_cons, here, ih others, List.length_cons, Nat.add_comm line.length, Nat.add_assoc]

theorem after_below {line column : Nat} {cs : List Char} {p : Position}
    (h : Position.after ⟨line, column⟩ cs = p) (down : Nat) :
    Position.after ⟨line + down, column⟩ cs = ⟨p.line + down, p.column⟩ := by
  induction cs generalizing line column with
  | nil =>
      subst h
      rfl
  | cons c cs ih =>
      rw [after_cons] at h ⊢
      rw [next] at h ⊢
      split at h
      · rename_i lineFeed
        rw [if_pos lineFeed, Nat.add_right_comm]
        exact ih h
      · rename_i other
        rw [if_neg other]
        exact ih h

/-- A text that begins elsewhere: all of it is as many lines further down, and what stands on its
first line as many columns to the right. -/
theorem after_moved {line column : Nat} {cs : List Char} {p : Position}
    (h : Position.after ⟨line, column⟩ cs = p) (down right : Nat) :
    Position.after ⟨line + down, column + right⟩ cs
      = ⟨p.line + down, p.column + if p.line = line then right else 0⟩ := by
  induction cs generalizing column with
  | nil =>
      subst h
      simp
  | cons c cs ih =>
      rw [after_cons] at h ⊢
      by_cases lineFeed : c = '\n'
      · have next (line column : Nat) : next ⟨line, column⟩ c = ⟨line + 1, 1⟩ :=
          if_pos (by simpa using lineFeed)
        rw [next] at h ⊢
        have below := line_le_after ⟨line + 1, 1⟩ cs
        rw [h] at below
        have further : p.line ≠ line := Nat.ne_of_gt below
        rw [if_neg further, Nat.add_right_comm, after_below h]
        rfl
      · have next (line column : Nat) : next ⟨line, column⟩ c = ⟨line, column + 1⟩ :=
          if_neg (by simpa using lineFeed)
        rw [next] at h ⊢
        rw [Nat.add_right_comm column]
        exact ih h

/-- A line feed behind each of some lines leads to the beginning of the line below them. -/
theorem after_lines {lines : List (List Char)} (h : ∀ line ∈ lines, '\n' ∉ line) (first : Nat) :
    Position.after ⟨first, 1⟩ (lines.flatMap (· ++ ['\n'])) = ⟨first + lines.length, 1⟩ := by
  induction lines generalizing first with
  | nil => rfl
  | cons line lines ih =>
      obtain ⟨here, others⟩ := List.forall_mem_cons.1 h
      rw [List.flatMap_cons, after_append, after_append, after_of_no_lineFeed here]
      change Position.after ⟨first + 1, 1⟩ _ = _
      rw [ih others, List.length_cons, Nat.add_right_comm, Nat.add_assoc]

end Position

namespace LogicalLine

/-- At a line and a column, both counted from one, stands a text that goes on to the end of that
line. -/
def RestAt (lines : List (List Char)) (line column : Nat) (rest : List Char) : Prop :=
  ∃ above skipped below, lines = above ++ (skipped ++ rest) :: below
    ∧ line = above.length + 1 ∧ column = skipped.length + 1

/-- Of lines that are joined by line feeds, what follows some of the text stands on the line and in
the column that this leads to. -/
theorem exists_line_after {lines : List (List Char)} {front rest : List Char}
    (some : lines ≠ []) (h : ∀ line ∈ lines, '\n' ∉ line)
    (joined : ['\n'].intercalate lines = front ++ rest) (first : Nat) :
    ∃ above skipped below, lines = above ++ (skipped ++ firstLine rest) :: below
      ∧ Position.after ⟨first, 1⟩ front = ⟨first + above.length, skipped.length + 1⟩ := by
  induction lines generalizing front first with
  | nil => exact absurd rfl some
  | cons line lines ih =>
      obtain ⟨here, others⟩ := List.forall_mem_cons.1 h
      -- Up to the end of the first line nothing is counted but columns.
      have within {as : List Char} (first' : line = front ++ as)
          (shown : firstLine rest = as) :
          line :: lines = [] ++ (front ++ firstLine rest) :: lines
            ∧ Position.after ⟨first, 1⟩ front = ⟨first + 0, front.length + 1⟩ := by
        have absent : '\n' ∉ front := fun inside => here (first' ▸ List.mem_append_left as inside)
        rw [Position.after_of_no_lineFeed absent, shown, ← first', Nat.add_comm]
        exact ⟨rfl, rfl⟩
      cases lines with
      | nil =>
          rw [List.intercalate_singleton] at joined
          have absent : '\n' ∉ rest := fun inside =>
            here (joined ▸ List.mem_append_right front inside)
          exact ⟨[], front, [], within joined (firstLine_of_no_lineFeed absent)⟩
      | cons line' lines =>
          rw [List.intercalate_cons_cons, List.append_assoc, List.singleton_append] at joined
          obtain ⟨as, rfl, behind⟩ | ⟨as, rfl, rfl⟩ := List.append_eq_append_iff.1 joined
          · cases as with
            | nil =>
                rw [List.nil_append] at behind
                rw [List.append_nil] at within ⊢
                subst behind
                exact ⟨[], line, line' :: lines, within (List.append_nil line).symm rfl⟩
            | cons c as =>
                rw [List.cons_append] at behind
                obtain ⟨rfl, inner⟩ := List.cons.inj behind
                obtain ⟨above, skipped, below, same, place⟩ :=
                  ih (List.cons_ne_nil _ _) others inner (first + 1)
                refine ⟨line :: above, skipped, below, congrArg (line :: ·) same, ?_⟩
                rw [Position.after_append, Position.after_of_no_lineFeed here, Position.after_cons]
                change Position.after ⟨first + 1, 1⟩ as = _
                rw [place, List.length_cons, Nat.add_right_comm, Nat.add_assoc]
          · have absent : '\n' ∉ as := fun inside => here (List.mem_append_right front inside)
            exact ⟨[], front, line' :: lines, within rfl (firstLine_append_lineFeed absent _)⟩

/-- A document goes on with a text at a line and a column. Carriage returns in front of line feeds
are left aside. -/
def GoesOn (lines : List (List Char)) (line column : Nat) (text : List Char) : Prop :=
  ∃ front, ['\n'].intercalate lines = front ++ text ∧ ({} : Position).after front = ⟨line, column⟩

theorem GoesOn.restAt {lines : List (List Char)} {line column : Nat} {text : List Char}
    (h : GoesOn lines line column text) (some : lines ≠ []) (apart : ∀ line ∈ lines, '\n' ∉ line) :
    RestAt lines line column (firstLine text) := by
  obtain ⟨front, joined, place⟩ := h
  obtain ⟨above, skipped, below, same, place'⟩ := exists_line_after some apart joined 1
  obtain ⟨onLine, inColumn⟩ := Position.mk.inj (place.symm.trans place')
  exact ⟨above, skipped, below, same, by rw [onLine, Nat.add_comm], inColumn⟩

theorem intercalate_append_cons (above : List (List Char)) (line : List Char)
    (more : List (List Char)) :
    ['\n'].intercalate (above ++ line :: more)
      = above.flatMap (· ++ ['\n']) ++ ['\n'].intercalate (line :: more) := by
  induction above with
  | nil => rfl
  | cons first above ih =>
      obtain ⟨next, others, same⟩ :=
        List.exists_cons_of_ne_nil (List.append_ne_nil_of_right_ne_nil above
          (List.cons_ne_nil line more))
      rw [List.cons_append, same, List.intercalate_cons_cons, ← same, ih, List.flatMap_cons,
        List.append_assoc (first ++ ['\n'])]

/-- The text of a logical line begins with what its first physical line has behind the indent. -/
theorem firstLine_text_ofLines (number : Nat) {line : List Char} (h : '\n' ∉ line)
    (more : List (List Char)) :
    firstLine (ofLines number line more).text.toList = line.dropWhile isIndent := by
  have absent : '\n' ∉ line.dropWhile isIndent := fun inside => h (List.dropWhile_subset _ inside)
  rw [text_ofLines]
  cases more with
  | nil => rw [List.flatMap_nil, List.append_nil, firstLine_of_no_lineFeed absent]
  | cons line' more => exact firstLine_append_lineFeed absent _

/-- What follows some of the text of a logical line follows in the document where this leads to, on
the first line so many columns further on as the indent is wide. -/
theorem exists_goesOn_of_mem_split {source : String} {l : LogicalLine}
    (h : l ∈ (split source).lines) {front rest : List Char}
    (whole : l.text.toList = front ++ rest) :
    let p := ({} : Position).after front
    l.number + front.count '\n' ≤ l.lastNumber
      ∧ ∃ behind, GoesOn (physicalLines source.toList) (l.number + front.count '\n')
          (p.column + if p.line = 1 then l.indent.length else 0) (rest ++ behind) := by
  have apart := no_lineFeed_of_mem_physicalLines source.toList
  have spaces : '\n' ∉ l.indent.toList := fun inside =>
    absurd (isIndent_of_mem_split source l h _ inside) (by decide)
  constructor
  · rw [lastNumber, whole, List.count_append, ← Nat.add_assoc]
    exact Nat.le_add_right _ _
  obtain ⟨above, line, more, below, lines, _, _, rfl⟩ := (parts_split source).exists_run l h
  have before : ∀ line ∈ above, '\n' ∉ line := fun line inside =>
    apart line (lines ▸ List.mem_append_left _ inside)
  refine ⟨below.flatMap ('\n' :: ·), above.flatMap (· ++ ['\n'])
    ++ ((ofLines (1 + above.length) line more).indent.toList ++ front), ?_, ?_⟩
  · rw [lines, intercalate_append_cons, intercalate_lineFeed, List.flatMap_append,
      ← List.append_assoc line, ← intercalate_lineFeed line more,
      ← indent_append_text_ofLines (1 + above.length), whole]
    simp only [List.append_assoc]
  · have moved := Position.after_moved (@rfl _ (({} : Position).after front)) above.length
      (ofLines (1 + above.length) line more).indent.length
    have line := Position.line_after {} front
    rw [Position.after_append, Position.after_lines before, Position.after_append,
      Position.after_of_no_lineFeed spaces, String.length_toList]
    refine moved.trans (congrArg (Position.mk · _) ?_)
    change _ = 1 + above.length + front.count '\n'
    rw [line, Nat.add_right_comm]

end LogicalLine

end MarkupCascade
