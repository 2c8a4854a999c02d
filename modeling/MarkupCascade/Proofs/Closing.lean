import MarkupCascade.Proofs.Brace
import MarkupCascade.Proofs.LogicalLine

/-!
Where a logical line ends. It takes in physical lines until the braces that are open are closed, so
it is told from the braces of its lines alone. A text made of gaps and tokens keeps a block open at
each of its line ends, whatever stands in its comments and strings.
-/

namespace MarkupCascade.LogicalLine

/-- Lines that close the braces which are open before them, the last of the lines and no other. -/
inductive Closes : Int → List (List Char) → Prop
  | last {n : Int} {line : List Char} : n + braceBalance .code line ≤ 0 → Closes n [line]
  | more {n : Int} {line : List Char} {lines : List (List Char)} :
      0 < n + braceBalance .code line → Closes (n + braceBalance .code line) lines →
      Closes n (line :: lines)

theorem Closes.front {n k : Int} {line line' : List Char} {lines : List (List Char)}
    (counted : braceBalance .code line' = k + braceBalance .code line)
    (h : Closes (n + k) (line :: lines)) : Closes n (line' :: lines) := by
  have same : n + braceBalance .code line' = n + k + braceBalance .code line := by
    rw [counted, Int.add_assoc]
  cases h with
  | last closed => exact .last (same ▸ closed)
  | more opened closes => exact .more (same ▸ opened) (same ▸ closes)

/-- Logical lines in front of what else is found. -/
def Split.prepend (ls : List LogicalLine) (s : Split) : Split := { s with lines := ls ++ s.lines }

/-- An open line that is completed by some more physical lines. -/
def Open.closeWith (o : Open) (more : List (List Char)) : LogicalLine :=
  ⟨o.number, String.ofList o.indent, String.ofList (o.text ++ more.flatMap ('\n' :: ·))⟩

theorem Open.closeWith_nil (o : Open) : o.closeWith [] = o.close := by
  simp [closeWith, close]

theorem Open.closeWith_extend (o : Open) (line : List Char) (more : List (List Char)) :
    (o.extend line).closeWith more = o.closeWith (line :: more) := by
  simp [closeWith, extend]

/-- The logical line of a physical line with the given number and of some more behind it. -/
def ofLines (number : Nat) (line : List Char) (more : List (List Char)) : LogicalLine :=
  (Open.start number line).closeWith more

/-- Lines that close a block are added to it. -/
theorem gather_some {o : Open} {lines : List (List Char)} (h : Closes o.balance lines)
    (number : Nat) (rest : List (List Char)) :
    gather number (some o) (lines ++ rest)
      = (gather (number + lines.length) none rest).prepend [o.closeWith lines] := by
  generalize start : o.balance = n at h
  induction h generalizing o number with
  | @last n line closed =>
      have balance : (o.extend line).balance = n + braceBalance .code line := by
        rw [Open.extend, start]
      rw [List.singleton_append, gather, Option.isNone_some, Bool.false_and,
        if_neg (by decide), Open.advance, if_neg (by omega), ← Open.closeWith_extend,
        Open.closeWith_nil]
      rfl
  | @more n line lines opened _ ih =>
      have balance : (o.extend line).balance = n + braceBalance .code line := by
        rw [Open.extend, start]
      rw [List.cons_append, gather, Option.isNone_some, Bool.false_and, if_neg (by decide),
        Open.advance, if_pos (by omega), ih (number + 1) balance, Open.closeWith_extend,
        List.length_cons, Nat.add_right_comm, Nat.add_assoc]

theorem intercalate_lineFeed (line : List Char) (lines : List (List Char)) :
    ['\n'].intercalate (line :: lines) = line ++ lines.flatMap ('\n' :: ·) := by
  induction lines generalizing line with
  | nil => simp
  | cons line' lines ih =>
      rw [List.intercalate_cons_cons, ih, List.flatMap_cons, List.append_assoc,
        List.singleton_append, List.cons_append]

theorem Open.start_append {indent body : List Char} (hindent : IsIndent indent)
    (start : ∃ c ∈ body.head?, Token.isNameStart c = true) (number : Nat) :
    Open.start number (indent ++ body) = ⟨number, indent, body, braceBalance .code body⟩ := by
  obtain ⟨c, head, start⟩ := start
  have stops : ∀ b ∈ body.head?, isIndent b = false := by
    rintro b hb
    cases head.symm.trans hb
    exact not_isIndent_of_isNameStart start
  rw [Open.start, Token.takeWhile_append_stop hindent stops,
    Token.dropWhile_append_stop hindent stops]

theorem braceBalance_indent_append {indent : List Char} (h : IsIndent indent) (cs : List Char) :
    braceBalance .code (indent ++ cs) = braceBalance .code cs := by
  refine braceBalance_plain (fun c inside => ?_) cs
  have blank := h c inside
  simp only [isIndent, Bool.or_eq_true, beq_iff_eq] at blank
  obtain rfl | rfl := blank <;> decide

theorem balance_start (number : Nat) (line : List Char) :
    (Open.start number line).balance = braceBalance .code line := by
  have indent : IsIndent (line.takeWhile isIndent) := fun c inside => List.mem_takeWhile_imp inside
  have same := braceBalance_indent_append indent (line.dropWhile isIndent)
  rw [List.takeWhile_append_dropWhile] at same
  exact same.symm

theorem isIgnored_append {indent body : List Char} (hindent : IsIndent indent)
    (start : ∃ c ∈ body.head?, Token.isNameStart c = true) : isIgnored (indent ++ body) = false := by
  obtain ⟨c, head, start⟩ := start
  obtain ⟨body, rfl⟩ := List.head?_eq_some_iff.1 head
  exact isIgnored_eq_false hindent start

section Shown

variable {line : List Char} (shown : isIgnored line = false) (number : Nat)

include shown

/-- A line that is not passed over begins a logical line. -/
theorem gather_shown (rest : List (List Char)) :
    gather number none (line :: rest)
      = if 0 < braceBalance .code line then gather (number + 1) (some (.start number line)) rest
        else (gather (number + 1) none rest).prepend [(Open.start number line).close] := by
  rw [gather, shown, Option.isNone_none, Bool.and_false, if_neg (by decide), Open.advance]
  dsimp only
  rw [balance_start]
  rfl

/-- Such a line with those that close its braces is a logical line. -/
theorem gather_run {more : List (List Char)} (closes : Closes 0 (line :: more))
    (rest : List (List Char)) :
    gather number none (line :: (more ++ rest))
      = (gather (number + (line :: more).length) none rest).prepend [ofLines number line more] := by
  rw [gather_shown shown]
  cases closes with
  | last closed =>
      rw [if_neg (by omega), List.nil_append, ofLines, Open.closeWith_nil]
      rfl
  | more opened closes =>
      rw [Int.zero_add] at opened closes
      rw [← balance_start number] at closes
      rw [if_pos opened, gather_some closes, List.length_cons, Nat.add_right_comm, Nat.add_assoc]
      rfl

end Shown

/-- A line with a name behind its indent begins a logical line, and is one with those that close its
braces. -/
theorem gather_none {indent body : List Char} {lines : List (List Char)}
    (hindent : IsIndent indent) (start : ∃ c ∈ body.head?, Token.isNameStart c = true)
    (h : Closes 0 (body :: lines)) (number : Nat) (rest : List (List Char)) :
    gather number none ((indent ++ body) :: (lines ++ rest))
      = (gather (number + (body :: lines).length) none rest).prepend
          [⟨number, String.ofList indent,
            String.ofList (['\n'].intercalate (body :: lines))⟩] := by
  have counted : braceBalance .code (indent ++ body) = 0 + braceBalance .code body := by
    rw [braceBalance_indent_append hindent, Int.zero_add]
  rw [gather_run (isIgnored_append hindent start) number (h.front counted), ofLines,
    Open.start_append hindent start, Open.closeWith, intercalate_lineFeed]
  rfl

/-- A text on one line that begins with a name is one logical line if its braces are closed, and
otherwise none at all. -/
theorem split_of_line {text : String} (line : '\n' ∉ text.toList)
    (start : ∃ c ∈ text.toList.head?, Token.isNameStart c = true) :
    split text = if 0 < braceBalance .code text.toList then ⟨[], some 1⟩
      else ⟨[⟨1, "", text⟩], none⟩ := by
  have shown : isIgnored text.toList = false := @isIgnored_append [] _ nofun start
  have opened : Open.start 1 text.toList = ⟨1, [], text.toList, braceBalance .code text.toList⟩ :=
    @Open.start_append [] _ nofun start 1
  rw [split, physicalLines_of_no_lineFeed line, gather_shown shown, opened]
  simp only [Open.close, String.ofList_toList, gather, Split.prepend, Option.map]
  rfl

theorem gather_ignored {line : List Char} (h : isIgnored line = true) (number : Nat)
    (rest : List (List Char)) :
    gather number none (line :: rest) = gather (number + 1) none rest := by
  rw [gather, h, Option.isNone_none, Bool.and_self, if_pos rfl]

/-! Texts whose physical lines close a block. -/

variable {n k : Int} {cs : List Char}

theorem closes_append {as : List Char} (h : Separate as)
    (counted : ∀ line, braceBalance .code (as ++ line) = k + braceBalance .code line)
    (rest : Closes (n + k) (physicalLines cs)) : Closes n (physicalLines (as ++ cs)) := by
  obtain ⟨line, lines, found⟩ := List.exists_cons_of_ne_nil (physicalLines_ne_nil cs)
  rw [found] at rest
  rw [physicalLines_append h found]
  exact rest.front (counted line)

theorem closes_cons {c : Char} (lineFeed : c ≠ '\n') (carriage : c = '\r' → cs.head? ≠ some '\n')
    (counted : ∀ line, line <+: cs →
      braceBalance .code (c :: line) = k + braceBalance .code line)
    (rest : Closes (n + k) (physicalLines cs)) : Closes n (physicalLines (c :: cs)) := by
  obtain ⟨line, lines, found⟩ := List.exists_cons_of_ne_nil (physicalLines_ne_nil cs)
  rw [found] at rest
  rw [physicalLines_cons lineFeed carriage found]
  exact rest.front (counted line (prefix_of_physicalLines found))

/-- At the end of a line the block has to be open. -/
theorem Closes.of_line {line : List Char} {lines : List (List Char)}
    (quiet : braceBalance .code line = 0) (opened : 0 < n) (rest : Closes n lines) :
    Closes n (line :: lines) := by
  have same : n + braceBalance .code line = n := by rw [quiet, Int.add_zero]
  exact .more (same.symm ▸ opened) (same.symm ▸ rest)

theorem closes_lineFeed (opened : 0 < n) (rest : Closes n (physicalLines cs)) :
    Closes n (physicalLines ('\n' :: cs)) := by
  rw [physicalLines]
  exact rest.of_line rfl opened

theorem closes_space {c : Char} (h : Token.isSpace c = true) (opened : c = '\n' → 0 < n)
    (rest : Closes n (physicalLines cs)) : Closes n (physicalLines (c :: cs)) := by
  obtain ⟨quote, openBrace, closeBrace, slash⟩ := isPlain_of_isSpace h
  by_cases lineFeed : c = '\n'
  · subst lineFeed
    exact closes_lineFeed (opened rfl) rest
  by_cases carriage : c = '\r' ∧ cs.head? = some '\n'
  · obtain ⟨rfl, next⟩ := carriage
    rwa [physicalLines_carriage next]
  · refine closes_cons (k := 0) lineFeed (fun same next => carriage ⟨same, next⟩) ?_
      ((Int.add_zero n).symm ▸ rest)
    intro line _
    rw [braceBalance_cons quote openBrace closeBrace fun same => absurd same slash, Int.zero_add]

theorem closes_gap {g : List Char} (h : Token.Gap false g) (opened : '\n' ∈ g → 0 < n)
    (rest : Closes n (physicalLines cs)) : Closes n (physicalLines (g ++ cs)) := by
  generalize inside : false = atEnd at h
  induction h with
  | nil => exact rest
  | @space _ c g space _ ih =>
      exact closes_space space (fun same => opened (same ▸ List.mem_cons_self))
        (ih (fun deeper => opened (List.mem_cons_of_mem c deeper)) inside)
  | @comment _ body g noLineFeed _ ih =>
      have ahead : 0 < n := opened (by simp)
      obtain ⟨line, found⟩ := exists_physicalLines_lineFeed noLineFeed (g ++ cs)
      have slash : ('/' : Char) ≠ '\n' ∧ ('/' : Char) ≠ '\r' := by decide
      rw [List.cons_append, List.cons_append, List.append_assoc, List.cons_append,
        physicalLines_cons slash.1 (fun same => absurd same slash.2)
          (physicalLines_cons slash.1 (fun same => absurd same slash.2) found)]
      exact (ih (fun _ => ahead) inside).of_line rfl ahead
  | lastComment _ => cases inside

theorem separate_spell {t : Token} (form : t.WellFormed)
    (condition : ∀ body, t = .condition body → '\n' ∉ body) : Separate t.spell :=
  ⟨Token.no_lineFeed_spell form condition, Token.getLast?_spell form⟩

theorem closes_neutral {body : List Char} (h : Neutral body) (carriage : '\r' ∉ body)
    (opened : '\n' ∈ body → 0 < n) (next : cs.head? ≠ some '/')
    (rest : Closes n (physicalLines cs)) : Closes n (physicalLines (body ++ cs)) := by
  induction h with
  | nil => exact rest
  | @plain c body quote openBrace closeBrace slashes _ ih =>
      simp only [List.mem_cons, not_or] at carriage
      have others := ih carriage.2 fun inside => opened (List.mem_cons_of_mem c inside)
      by_cases lineFeed : c = '\n'
      · subst lineFeed
        exact closes_lineFeed (opened List.mem_cons_self) others
      refine closes_cons (k := 0) lineFeed (fun same => absurd same.symm carriage.1) ?_
        ((Int.add_zero n).symm ▸ others)
      intro line front
      rw [Int.zero_add, braceBalance_cons quote openBrace closeBrace]
      intro slash second
      have second : (body ++ cs).head? = some '/' := by
        obtain ⟨line, rfl⟩ := List.head?_eq_some_iff.1 second
        obtain ⟨after, whole⟩ := front
        exact (congrArg List.head? whole).symm
      cases body with
      | nil => exact next second
      | cons d body => exact slashes slash second
  | @quoted text body isBody _ ih =>
      simp only [List.mem_cons, List.mem_append, not_or] at carriage
      have others := ih carriage.2.2.2 fun inside => opened (by simp [inside])
      let t : Token := .string text
      have form : t.WellFormed := isBody
      have closes := closes_append (k := t.weight) (separate_spell form nofun)
        (braceBalance_spell form trivial) ((Int.add_zero n).symm ▸ others)
      simpa [t, Token.spell] using closes

theorem closes_spell {t : Token} (form : t.WellFormed) (counted : t.Counted)
    (carriage : ∀ body, t = .condition body → '\r' ∉ body) (opened : '\n' ∈ t.spell → 0 < n)
    (rest : Closes (n + t.weight) (physicalLines cs)) :
    Closes n (physicalLines (t.spell ++ cs)) := by
  cases t with
  | condition body =>
      have closing : Closes (n + 1) (physicalLines ('}' :: cs)) := by
        refine closes_cons (k := -1) (by decide) (by rintro ⟨⟩) ?_ ?_
        · intro line _
          exact (Int.sub_eq_add_neg).trans (Int.add_comm _ _)
        · rwa [Int.add_assoc]
      -- At a line end inside a condition its own brace is open as well.
      have ahead (inside : '\n' ∈ body) : 0 < n + 1 := by
        have := opened (by simp [Token.spell, inside])
        omega
      have inside := closes_neutral counted (carriage body rfl) ahead (by simp) closing
      have opening : Closes n (physicalLines ('{' :: (body ++ '}' :: cs))) :=
        closes_cons (k := 1) (by decide) (by rintro ⟨⟩) (fun line _ => Int.add_comm _ _) inside
      rw [Token.spell, List.cons_append, List.cons_append, List.append_assoc,
        List.singleton_append]
      refine closes_cons (k := 0) (by decide) (by rintro ⟨⟩) ?_ ((Int.add_zero n).symm ▸ opening)
      intro line _
      have question : ('?' : Char) ≠ '/' := by decide
      rw [Int.zero_add, braceBalance_cons (by decide) (by decide) (by decide) fun same =>
        absurd same question]
  | _ =>
      have separate := separate_spell form (by rintro _ ⟨⟩)
      exact closes_append separate (braceBalance_spell form counted) rest

/-- What follows the last brace on its line. -/
theorem closes_end {g : List Char} (h : Token.Gap true g) (line : '\n' ∉ g) (closed : n ≤ 0) :
    Closes n (physicalLines g) := by
  have quiet : braceBalance .code (g ++ []) = 0 := braceBalance_gap h line fun _ => rfl
  rw [List.append_nil] at quiet
  rw [physicalLines_of_no_lineFeed line]
  exact .last (by omega)

end MarkupCascade.LogicalLine
