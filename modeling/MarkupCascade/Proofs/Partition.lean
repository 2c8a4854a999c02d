import Mathlib
import MarkupCascade.Proofs.Closing
import MarkupCascade.Proofs.Numbering
import MarkupCascade.Template

/-!
How the physical lines of a document are shared out. A line is passed over, or it begins a logical
line, which takes in the lines behind it up to the first where no brace is open any more. If there is
no such line the block has no end, and nothing stands behind it. So no line is lost, and none is used
twice.
-/

namespace MarkupCascade.LogicalLine

/-- The braces that are open behind some physical lines. -/
def openBraces (lines : List (List Char)) : Int := (lines.map (braceBalance .code)).sum

theorem openBraces_cons (line : List Char) (lines : List (List Char)) :
    openBraces (line :: lines) = braceBalance .code line + openBraces lines := by
  rw [openBraces, List.map_cons, List.sum_cons]
  rfl

/-- Lines behind each of which some braces are open. -/
inductive StaysOpen : Int → List (List Char) → Prop
  | nil {n : Int} : StaysOpen n []
  | cons {n : Int} {line : List Char} {lines : List (List Char)} :
      0 < n + braceBalance .code line → StaysOpen (n + braceBalance .code line) lines →
      StaysOpen n (line :: lines)

theorem StaysOpen.pos {n : Int} {lines : List (List Char)} (h : StaysOpen n lines) {k : Nat}
    (first : 0 < k) (last : k ≤ lines.length) : 0 < n + openBraces (lines.take k) := by
  induction h generalizing k with
  | nil => exact absurd (Nat.lt_of_lt_of_le first last) (Nat.lt_irrefl 0)
  | @cons n line lines opened _ ih =>
      obtain ⟨k, rfl⟩ := Nat.exists_eq_add_one.2 first
      rw [List.take_succ_cons, openBraces_cons, ← Int.add_assoc]
      cases k with
      | zero => simpa [openBraces] using opened
      | succ k => exact ih (Nat.succ_pos k) (Nat.le_of_succ_le_succ last)

/-- Braces are open behind each line of a block but the last. -/
theorem Closes.pos_iff {n : Int} {lines : List (List Char)} (h : Closes n lines) {k : Nat}
    (first : 0 < k) (last : k ≤ lines.length) :
    0 < n + openBraces (lines.take k) ↔ k < lines.length := by
  induction h generalizing k with
  | @last n line closed =>
      obtain rfl : k = 1 := Nat.le_antisymm last first
      have balance : openBraces ([line].take 1) = braceBalance .code line := by simp [openBraces]
      rw [balance]
      exact iff_of_false (Int.not_lt.2 closed) (Nat.lt_irrefl 1)
  | @more n line lines opened closes ih =>
      obtain ⟨k, rfl⟩ := Nat.exists_eq_add_one.2 first
      rw [List.take_succ_cons, openBraces_cons, ← Int.add_assoc, List.length_cons,
        Nat.add_lt_add_iff_right]
      cases k with
      | zero =>
          have filled : 0 < lines.length := by cases closes <;> exact Nat.succ_pos _
          exact iff_of_true (by simpa [openBraces] using opened) filled
      | succ k => exact ih (Nat.succ_pos k) (Nat.le_of_succ_le_succ last)

/-- Some lines close the braces that are open before them, or none does. -/
theorem closes_or_staysOpen (n : Int) (lines : List (List Char)) :
    (∃ run rest, lines = run ++ rest ∧ Closes n run) ∨ StaysOpen n lines := by
  induction lines generalizing n with
  | nil => exact .inr .nil
  | cons line lines ih =>
      by_cases opened : 0 < n + braceBalance .code line
      · obtain ⟨run, rest, rfl, closes⟩ | open' := ih (n + braceBalance .code line)
        · exact .inl ⟨line :: run, rest, rfl, .more opened closes⟩
        · exact .inr (.cons opened open')
      · exact .inl ⟨[line], lines, rfl, .last (Int.not_lt.1 opened)⟩

theorem gather_staysOpen {o : Open} {lines : List (List Char)} (h : StaysOpen o.balance lines)
    (number : Nat) : gather number (some o) lines = ⟨[], some o.number⟩ := by
  generalize start : o.balance = n at h
  induction h generalizing o number with
  | nil => rfl
  | @cons n line lines opened _ ih =>
      have balance : (o.extend line).balance = n + braceBalance .code line := by
        rw [Open.extend, start]
      rw [gather, Option.isNone_some, Bool.false_and, if_neg (by decide), Open.advance,
        if_pos (by omega)]
      exact ih (number + 1) balance

theorem gather_unclosed {line : List Char} (shown : isIgnored line = false) (number : Nat)
    {rest : List (List Char)} (stays : StaysOpen 0 (line :: rest)) :
    gather number none (line :: rest) = ⟨[], some number⟩ := by
  cases stays with
  | cons opened stays =>
      rw [Int.zero_add] at opened stays
      rw [← balance_start number] at stays
      rw [gather_shown shown, if_pos opened, gather_staysOpen stays]
      rfl

/-- Physical lines, the first of which has the given number, and what is found in them. -/
inductive Parts : Nat → List (List Char) → Split → Prop
  | nil {number : Nat} : Parts number [] ⟨[], none⟩
  | ignored {number : Nat} {line : List Char} {rest : List (List Char)} {s : Split} :
      isIgnored line = true → Parts (number + 1) rest s → Parts number (line :: rest) s
  | run {number : Nat} {line : List Char} {more rest : List (List Char)} {s : Split} :
      isIgnored line = false → Closes 0 (line :: more) →
      Parts (number + (line :: more).length) rest s →
      Parts number (line :: (more ++ rest)) (s.prepend [ofLines number line more])
  | unclosed {number : Nat} {line : List Char} {more : List (List Char)} :
      isIgnored line = false → StaysOpen 0 (line :: more) →
      Parts number (line :: more) ⟨[], some number⟩

/-- Lines are taken off the front, one that is passed over or all those of a block, so the induction
is on how many there are. -/
theorem parts_gather (number : Nat) (lines : List (List Char)) :
    Parts number lines (gather number none lines) := by
  generalize size : lines.length = n
  induction n using Nat.strong_induction_on generalizing number lines with
  | h n ih =>
      cases lines with
      | nil => exact .nil
      | cons line rest =>
          rw [List.length_cons] at size
          cases shown : isIgnored line with
          | true =>
              rw [gather_ignored shown]
              exact .ignored shown (ih _ (by omega) (number + 1) rest rfl)
          | false =>
              obtain ⟨_ | ⟨_, more⟩, below, whole, closes⟩ | stays :=
                closes_or_staysOpen 0 (line :: rest)
              · cases closes
              · rw [List.cons_append, List.cons.injEq] at whole
                obtain ⟨rfl, rfl⟩ := whole
                rw [List.length_append] at size
                rw [gather_run shown number closes]
                exact .run shown closes (ih _ (by omega) _ below rfl)
              · rw [gather_unclosed shown number stays]
                exact .unclosed shown stays

theorem parts_split (source : String) : Parts 1 (physicalLines source.toList) (split source) :=
  parts_gather 1 _

section OfLines

variable (number : Nat) (line : List Char) (more : List (List Char))

theorem text_ofLines : (ofLines number line more).text.toList
    = line.dropWhile isIndent ++ more.flatMap ('\n' :: ·) :=
  String.toList_ofList

theorem indent_append_text_ofLines :
    (ofLines number line more).indent.toList ++ (ofLines number line more).text.toList
      = ['\n'].intercalate (line :: more) := by
  rw [intercalate_lineFeed, text_ofLines, ← List.append_assoc]
  change (String.ofList (line.takeWhile isIndent)).toList ++ _ ++ _ = _
  rw [String.toList_ofList, List.takeWhile_append_dropWhile]

end OfLines

theorem lastNumber_ofLines (number : Nat) {line : List Char} {more : List (List Char)}
    (apart : ∀ l ∈ line :: more, '\n' ∉ l) :
    (ofLines number line more).lastNumber = number + more.length := by
  obtain ⟨first, others⟩ := List.forall_mem_cons.1 apart
  have absent : '\n' ∉ line.dropWhile isIndent := fun inside => first (List.dropWhile_subset _ inside)
  have ends : (more.flatMap ('\n' :: ·)).count '\n' = more.length := by
    induction more with
    | nil => rfl
    | cons next more ih =>
        obtain ⟨here, others⟩ := List.forall_mem_cons.1 others
        rw [List.flatMap_cons, List.count_append, List.count_cons_self,
          List.count_eq_zero.2 here, ih (List.forall_mem_cons.2 ⟨first, others⟩) others,
          List.length_cons, Nat.zero_add, Nat.add_comm]
  rw [lastNumber, text_ofLines, List.count_append, List.count_eq_zero.2 absent, ends, Nat.zero_add]
  rfl

namespace Parts

variable {number : Nat} {lines : List (List Char)} {s : Split}

theorem exists_run (h : Parts number lines s) :
    ∀ l ∈ s.lines, ∃ above line more below, lines = above ++ line :: (more ++ below)
      ∧ isIgnored line = false ∧ Closes 0 (line :: more)
      ∧ l = ofLines (number + above.length) line more := by
  induction h with
  | nil | unclosed _ _ => simp
  | @ignored number line rest s _ _ ih =>
      intro l hl
      obtain ⟨above, line', more, below, rfl, shown, closes, rfl⟩ := ih l hl
      refine ⟨line :: above, line', more, below, rfl, shown, closes, ?_⟩
      rw [List.length_cons, Nat.add_comm above.length, Nat.add_assoc]
  | @run number line more rest s shown closes _ ih =>
      refine List.forall_mem_cons.2 ⟨⟨[], line, more, rest, rfl, shown, closes, rfl⟩, ?_⟩
      intro l hl
      obtain ⟨above, line', more', below, rfl, shown', closes', rfl⟩ := ih l hl
      refine ⟨line :: (more ++ above), line', more', below, by simp, shown', closes', ?_⟩
      refine congrArg (ofLines · line' more') ?_
      simp only [List.length_cons, List.length_append]
      omega

theorem number_le (h : Parts number lines s) : ∀ l ∈ s.lines, number ≤ l.number := by
  intro l hl
  obtain ⟨above, line, more, below, _, _, _, rfl⟩ := h.exists_run l hl
  exact Nat.le_add_right _ _

end Parts

/-- The physical line with the given number is one of those that a logical line stands on. -/
def Covers (l : LogicalLine) (number : Nat) : Prop := l.number ≤ number ∧ number ≤ l.lastNumber

/-- The physical line with the given number is passed over, or it belongs to exactly one logical
line. -/
def SharedOut (ls : List LogicalLine) (number : Nat) (line : List Char) : Prop :=
  (isIgnored line = true ∧ ∀ l ∈ ls, ¬l.Covers number) ∨ ∃! l, l ∈ ls ∧ l.Covers number

theorem SharedOut.cons {ls : List LogicalLine} {number : Nat} {line : List Char}
    (h : SharedOut ls number line) {l : LogicalLine} (other : ¬l.Covers number) :
    SharedOut (l :: ls) number line := by
  obtain ⟨ignored, none⟩ | ⟨m, ⟨hm, covers⟩, only⟩ := h
  · exact .inl ⟨ignored, List.forall_mem_cons.2 ⟨other, none⟩⟩
  · refine .inr ⟨m, ⟨List.mem_cons_of_mem l hm, covers⟩, ?_⟩
    rintro m' ⟨hm', covers'⟩
    obtain rfl | hm' := List.mem_cons.1 hm'
    · exact absurd covers' other
    · exact only m' ⟨hm', covers'⟩

namespace Parts

variable {number : Nat} {lines : List (List Char)} {s : Split}

theorem not_covers (h : Parts number lines s) {k : Nat} (before : k < number) :
    ∀ l ∈ s.lines, ¬l.Covers k :=
  fun l hl covers => Nat.not_le_of_lt (Nat.lt_of_lt_of_le before (h.number_le l hl)) covers.1

/-- Up to a block without an end every line is shared out. -/
theorem sharedOut (h : Parts number lines s) (apart : ∀ line ∈ lines, '\n' ∉ line) :
    ∀ (i : Nat) (line : List Char), lines[i]? = some line → (∀ m ∈ s.unclosed, number + i < m) →
      SharedOut s.lines (number + i) line := by
  induction h with
  | nil => simp
  | @unclosed number line more _ _ =>
      intro i line' _ before
      exact absurd (before number rfl) (Nat.not_lt.2 (Nat.le_add_right _ _))
  | @ignored number line rest s ignored parts ih =>
      intro i line' found before
      cases i with
      | zero =>
          cases found
          exact .inl ⟨ignored, parts.not_covers (Nat.lt_succ_self number)⟩
      | succ i =>
          rw [Nat.add_comm i, ← Nat.add_assoc] at before ⊢
          exact ih (List.forall_mem_cons.1 apart).2 i line' found before
  | @run number line more rest s _ _ parts ih =>
      intro i line' found before
      rw [← List.cons_append] at found apart
      rw [List.forall_mem_append] at apart
      have last := lastNumber_ofLines number apart.1
      by_cases inside : i < (line :: more).length
      · rw [List.length_cons] at inside
        refine .inr ⟨_, ⟨List.mem_cons_self, Nat.le_add_right _ _, ?_⟩, ?_⟩
        · rw [last]
          omega
        · rintro m ⟨hm, covers⟩
          obtain rfl | later := List.mem_cons.1 hm
          · rfl
          · have low := parts.number_le m later
            rw [List.length_cons] at low
            have := covers.1
            omega
      · have behind : number + i = number + (line :: more).length + (i - (line :: more).length) := by
          omega
        rw [List.getElem?_append_right (Nat.not_lt.1 inside)] at found
        rw [behind] at before ⊢
        refine (ih apart.2 _ line' found before).cons fun covers => ?_
        have := covers.2
        rw [last, ← behind] at this
        rw [List.length_cons] at inside
        omega

theorem exists_unclosed (h : Parts number lines s) (apart : ∀ line ∈ lines, '\n' ∉ line) {m : Nat}
    (opened : s.unclosed = some m) :
    (∃ above line more, lines = above ++ line :: more ∧ m = number + above.length
        ∧ isIgnored line = false ∧ StaysOpen 0 (line :: more))
      ∧ ∀ l ∈ s.lines, l.lastNumber < m := by
  induction h with
  | nil => cases opened
  | @unclosed number line more shown stays =>
      cases opened
      exact ⟨⟨[], line, more, rfl, rfl, shown, stays⟩, List.forall_mem_nil _⟩
  | @ignored number line rest s _ _ ih =>
      obtain ⟨⟨above, line', more, rfl, rfl, shown, stays⟩, low⟩ :=
        ih (List.forall_mem_cons.1 apart).2 opened
      refine ⟨⟨line :: above, line', more, rfl, ?_, shown, stays⟩, low⟩
      rw [List.length_cons]
      omega
  | @run number line more rest s _ _ parts ih =>
      rw [← List.cons_append, List.forall_mem_append] at apart
      obtain ⟨⟨above, line', more', rfl, rfl, shown, stays⟩, low⟩ := ih apart.2 opened
      refine ⟨⟨line :: (more ++ above), line', more', by simp, ?_, shown, stays⟩,
        List.forall_mem_cons.2 ⟨?_, low⟩⟩
      · simp only [List.length_cons, List.length_append]
        omega
      · rw [lastNumber_ofLines number apart.1, List.length_cons]
        omega

end Parts

/-- A logical line stands on a run of the physical lines. It begins with one that is not passed
over, is all of their text, and ends with the first behind which no brace is open. -/
structure StandsOn (l : LogicalLine) (lines above : List (List Char)) (line : List Char)
    (more below : List (List Char)) : Prop where
  whole : lines = above ++ line :: (more ++ below)
  number : l.number = above.length + 1
  lastNumber : l.lastNumber = above.length + (line :: more).length
  shown : isIgnored line = false
  indent : l.indent.toList = line.takeWhile isIndent
  joined : l.indent.toList ++ l.text.toList = ['\n'].intercalate (line :: more)
  ends : ∀ k, 0 < k → k ≤ (line :: more).length →
    (0 < openBraces ((line :: more).take k) ↔ k < (line :: more).length)

theorem Parts.exists_standsOn {lines : List (List Char)} {s : Split} (h : Parts 1 lines s)
    (apart : ∀ line ∈ lines, '\n' ∉ line) :
    ∀ l ∈ s.lines, ∃ above line more below, l.StandsOn lines above line more below := by
  intro l hl
  obtain ⟨above, line, more, below, rfl, shown, closes, rfl⟩ := h.exists_run l hl
  have own : ∀ l ∈ line :: more, '\n' ∉ l := fun l inside =>
    apart l (List.mem_append_right above (List.mem_append_left below inside))
  refine ⟨above, line, more, below, rfl, Nat.add_comm 1 _, ?_, shown, String.toList_ofList,
    indent_append_text_ofLines _ line more, fun k first last => ?_⟩
  · rw [lastNumber_ofLines _ own, List.length_cons]
    omega
  · have ends := closes.pos_iff first last
    rwa [Int.zero_add] at ends

/-- A block of a document that begins on the given line has no end. All lines in front of it are
shared out, and if these can be read then this is what the document is refused for. -/
structure Unended (source : String) (number : Nat) : Prop where
  opens : ∃ above line more, physicalLines source.toList = above ++ line :: more
    ∧ number = above.length + 1 ∧ isIgnored line = false
    ∧ ∀ k, 0 < k → k ≤ (line :: more).length → 0 < openBraces ((line :: more).take k)
  behind : ∀ l ∈ (split source).lines, l.lastNumber < number
  before : ∀ (i : Nat) line, (physicalLines source.toList)[i]? = some line → i + 1 < number →
    SharedOut (split source).lines (i + 1) line
  template : ∀ es, Template.entries none (split source).lines = .ok es →
    Component.parse source = .error (.parse ⟨.unclosedBlock, some number, none⟩)
  stylesheet : ∀ rules name, (split source).lines.mapM Stylesheet.rule = .ok rules →
    Stylesheet.parse source name = .error (.parse ⟨.unclosedBlock, some number, none⟩)

theorem unended_of_unclosed {source : String} {number : Nat}
    (opened : (split source).unclosed = some number) : Unended source number := by
  have parts := parts_split source
  have apart := no_lineFeed_of_mem_physicalLines source.toList
  obtain ⟨⟨above, line, more, whole, first, shown, stays⟩, behind⟩ :=
    parts.exists_unclosed apart opened
  refine ⟨⟨above, line, more, whole, ?_, shown, fun k first last => ?_⟩, behind, ?_, ?_, ?_⟩
  · rw [first, Nat.add_comm]
  · have stay := stays.pos first last
    rwa [Int.zero_add] at stay
  · intro i line found inFront
    rw [Nat.add_comm] at inFront ⊢
    refine parts.sharedOut apart i line found fun m hm => ?_
    cases opened.symm.trans hm
    exact inFront
  · intro es read
    rw [Component.parse, read, opened]
    rfl
  · intro rules name read
    rw [Stylesheet.parse, read, opened]
    rfl

/-- The physical lines of a document are shared out among its logical lines, which stand on runs of
them one after the other. Where a block has no end, it goes from its first line to the last line of
the document, and all lines in front of it are shared out. -/
theorem split_partitions (source : String) :
    let lines := physicalLines source.toList
    let ls := (split source).lines
    (∀ l ∈ ls, ∃ above line more below, l.StandsOn lines above line more below)
      ∧ ls.Pairwise (fun l l' => l.lastNumber < l'.number)
      ∧ ((split source).unclosed = none →
        ∀ (i : Nat) line, lines[i]? = some line → SharedOut ls (i + 1) line)
      ∧ ∀ number, (split source).unclosed = some number → Unended source number := by
  have parts := parts_split source
  have apart := no_lineFeed_of_mem_physicalLines source.toList
  refine ⟨parts.exists_standsOn apart, (successive_split source).pairwise, ?_,
    fun _ => unended_of_unclosed⟩
  intro complete i line found
  rw [Nat.add_comm]
  refine parts.sharedOut apart i line found ?_
  rw [complete]
  rintro _ ⟨⟩

/-- A block with an empty line in it, between a comment and a brace that closes nothing; and below
them a block without an end. -/
theorem split_partitions_unended :
    let whole := "// c\n\ta \x7b\n\n k: 1 \x7d\n\x7d"
    let cut := "// c\n\ta \x7b\n\n k: 1 \x7d\n\x7d\nb \x7b\n"
    let block : LogicalLine := ⟨2, "\t", "a \x7b\n\n k: 1 \x7d"⟩
    let brace : LogicalLine := ⟨5, "", "\x7d"⟩
    (split whole = ⟨[block, brace], none⟩
        ∧ (∃ above line more below,
          block.StandsOn (physicalLines whole.toList) above line more below)
        ∧ block.lastNumber < brace.number
        ∧ SharedOut [block, brace] 1 "// c".toList ∧ SharedOut [block, brace] 3 [])
      ∧ split cut = ⟨[block, brace], some 6⟩ ∧ Unended cut 6 := by
  intro whole cut block brace
  have complete : split whole = ⟨[block, brace], none⟩ := by cbv
  have unclosed : split cut = ⟨[block, brace], some 6⟩ := by cbv
  have lines : physicalLines whole.toList
      = ["// c".toList, "\ta \x7b".toList, [], " k: 1 \x7d".toList, ['\x7d']] := by cbv
  obtain ⟨stands, apart, shared, _⟩ := split_partitions whole
  obtain ⟨_, _, _, unended⟩ := split_partitions cut
  rw [complete] at stands apart shared
  rw [lines] at shared
  exact ⟨⟨complete, stands block List.mem_cons_self,
    (List.pairwise_cons.1 apart).1 brace (List.mem_singleton_self brace),
    shared rfl 0 _ rfl, shared rfl 2 _ rfl⟩, unclosed, unended 6 (by rw [unclosed])⟩

end MarkupCascade.LogicalLine
