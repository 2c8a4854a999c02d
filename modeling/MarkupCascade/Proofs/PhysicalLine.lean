import MarkupCascade.LogicalLine
import Mathlib.Logic.Basic

/-!
The physical lines of a text, of which a line feed ends one, alone or behind a carriage return. A
text is its lines joined by line feeds, but for the carriage returns that stand before one.
-/

namespace MarkupCascade.LogicalLine

theorem physicalLines_ne_nil (cs : List Char) : physicalLines cs ≠ [] := by
  unfold physicalLines
  split
  · exact List.cons_ne_nil _ _
  · exact List.cons_ne_nil _ _
  · exact List.cons_ne_nil _ _
  · split <;> exact List.cons_ne_nil _ _

theorem physicalLines_cons {c : Char} {cs : List Char} (lineFeed : c ≠ '\n')
    (carriage : c = '\r' → cs.head? ≠ some '\n') {line : List Char} {lines : List (List Char)}
    (h : physicalLines cs = line :: lines) : physicalLines (c :: cs) = (c :: line) :: lines := by
  rw [physicalLines, h]
  · exact lineFeed
  · rintro cs' rfl rfl
    exact carriage rfl rfl

/-- A line that can be told apart from a line feed after it. -/
structure Separate (line : List Char) : Prop where
  lineFeed : '\n' ∉ line
  carriage : ∀ c ∈ line.getLast?, c ≠ '\r'

theorem getLast?_tail {c : Char} {cs : List Char} (h : ∀ d ∈ (c :: cs).getLast?, d ≠ '\r') :
    ∀ d ∈ cs.getLast?, d ≠ '\r' := by
  cases cs with
  | nil => simp
  | cons d cs => simpa using h

theorem Separate.tail {c : Char} {line : List Char} (h : Separate (c :: line)) :
    Separate line :=
  ⟨(not_or.1 (List.mem_cons.not.1 h.lineFeed)).2, getLast?_tail h.carriage⟩

theorem Separate.head_append {line : List Char} (h : Separate ('\r' :: line)) (cs : List Char) :
    (line ++ cs).head? ≠ some '\n' := by
  cases line with
  | nil => exact absurd rfl (h.carriage _ rfl)
  | cons d line =>
      rintro next
      obtain rfl : d = '\n' := by simpa using next
      exact h.tail.lineFeed List.mem_cons_self

/-- A line goes on in the first line of what follows it. -/
theorem physicalLines_append {as cs line : List Char} {lines : List (List Char)} (h : Separate as)
    (found : physicalLines cs = line :: lines) :
    physicalLines (as ++ cs) = (as ++ line) :: lines := by
  induction as with
  | nil => exact found
  | cons c as ih =>
      refine physicalLines_cons ?_ ?_ (ih h.tail)
      · rintro rfl
        exact h.lineFeed List.mem_cons_self
      · rintro rfl
        exact h.head_append cs

theorem physicalLines_of_no_lineFeed {line : List Char} (h : '\n' ∉ line) :
    physicalLines line = [line] := by
  induction line with
  | nil => rfl
  | cons c line ih =>
      obtain ⟨other, others⟩ := not_or.1 (List.mem_cons.not.1 h)
      refine physicalLines_cons (Ne.symm other) ?_ (ih others)
      intro _ next
      exact others (List.mem_of_mem_head? next)

theorem physicalLines_intercalate {lines : List (List Char)} (some : lines ≠ [])
    (h : ∀ line ∈ lines, Separate line) : physicalLines (['\n'].intercalate lines) = lines := by
  induction lines with
  | nil => exact absurd rfl some
  | cons line lines ih =>
      obtain ⟨first, others⟩ := List.forall_mem_cons.1 h
      cases lines with
      | nil =>
          rw [List.intercalate_singleton]
          exact physicalLines_of_no_lineFeed first.lineFeed
      | cons line' lines =>
          have rest := ih (by simp) others
          rw [List.intercalate_cons_cons, List.append_assoc, List.singleton_append,
            physicalLines_append first (by rw [physicalLines]), rest, List.append_nil]

/-- What ends the last line of a text: a line feed, with the carriage return before it if there is
one. -/
def EndsLine (as e : List Char) : Prop :=
  e = ['\r', '\n'] ∨ e = ['\n'] ∧ ∀ c ∈ as.getLast?, c ≠ '\r'

theorem EndsLine.tail {c : Char} {as e : List Char} (h : EndsLine (c :: as) e) : EndsLine as e :=
  h.imp_right fun h => ⟨h.1, getLast?_tail h.2⟩

/-- A line end divides the lines before it from those behind it. -/
theorem physicalLines_append_lineEnd {as e : List Char} (h : EndsLine as e) (cs : List Char) :
    physicalLines (as ++ (e ++ cs)) = physicalLines as ++ physicalLines cs := by
  fun_induction physicalLines as with
  | case1 => obtain rfl | ⟨rfl, _⟩ := h <;> rfl
  | case2 as ih =>
      have rest := ih h.tail
      simp [physicalLines, rest]
  | case3 as ih =>
      have rest := ih h.tail.tail
      simp [physicalLines, rest]
  | case4 c as lineFeed carriage line lines found ih =>
      have rest := ih h.tail
      rw [found, List.cons_append] at rest
      rw [List.cons_append, physicalLines_cons lineFeed ?_ rest, List.cons_append]
      rintro rfl
      cases as with
      | nil =>
          obtain rfl | ⟨rfl, single⟩ := h
          · simp
          · exact absurd rfl (single _ rfl)
      | cons d as => simpa using carriage as
  | case5 c as _ _ none ih => exact absurd none (physicalLines_ne_nil as)

/-- The first line stands at the head of the text. -/
theorem prefix_of_physicalLines {cs line : List Char} {lines : List (List Char)}
    (h : physicalLines cs = line :: lines) : line <+: cs := by
  fun_induction physicalLines cs generalizing line lines with
  | case1 => exact (List.cons.inj h).1 ▸ List.prefix_rfl
  | case2 cs ih | case3 cs ih => exact (List.cons.inj h).1 ▸ List.nil_prefix
  | case4 c cs lineFeed carriage line' lines' found ih =>
      cases h
      exact List.cons_prefix_cons.2 ⟨rfl, ih found⟩
  | case5 c cs _ _ none ih => exact absurd none (physicalLines_ne_nil cs)

theorem physicalLines_carriage {cs : List Char} (h : cs.head? = some '\n') :
    physicalLines ('\r' :: cs) = physicalLines cs := by
  obtain ⟨cs, rfl⟩ := List.head?_eq_some_iff.1 h
  rfl

/-- A line feed ends a line, whatever that line is. -/
theorem exists_physicalLines_lineFeed {as : List Char} (h : '\n' ∉ as) (cs : List Char) :
    ∃ line, physicalLines (as ++ '\n' :: cs) = line :: physicalLines cs := by
  induction as with
  | nil => exact ⟨[], rfl⟩
  | cons c as ih =>
      obtain ⟨other, others⟩ := not_or.1 (List.mem_cons.not.1 h)
      obtain ⟨line, found⟩ := ih others
      by_cases carriage : c = '\r' ∧ (as ++ '\n' :: cs).head? = some '\n'
      · obtain ⟨rfl, next⟩ := carriage
        exact ⟨line, (physicalLines_carriage next).trans found⟩
      · exact ⟨c :: line, physicalLines_cons (Ne.symm other) (fun same next =>
          carriage ⟨same, next⟩) found⟩

theorem length_physicalLines (cs : List Char) :
    (physicalLines cs).length = cs.count '\n' + 1 := by
  fun_induction physicalLines cs with
  | case1 => rfl
  | case2 cs ih => simp [ih]
  | case3 cs ih => simp [ih]
  | case4 c cs lineFeed carriage line lines found ih =>
      rw [found] at ih
      rw [List.count_cons_of_ne lineFeed, ← ih]
      rfl
  | case5 c cs _ _ none ih => exact absurd none (physicalLines_ne_nil cs)

theorem no_lineFeed_of_mem_physicalLines (cs : List Char) :
    ∀ line ∈ physicalLines cs, '\n' ∉ line := by
  fun_induction physicalLines cs with
  | case1 => simp
  | case2 cs ih | case3 cs ih => exact List.forall_mem_cons.2 ⟨by simp, ih⟩
  | case4 c cs lineFeed carriage line lines found ih =>
      rw [found] at ih
      obtain ⟨first, others⟩ := List.forall_mem_cons.1 ih
      exact List.forall_mem_cons.2 ⟨by simp [Ne.symm lineFeed, first], others⟩
  | case5 c cs _ _ none ih => exact absurd none (physicalLines_ne_nil cs)

/-- A text without the carriage returns that stand before a line feed. -/
def lineFeeds : List Char → List Char
  | [] => []
  | '\r' :: '\n' :: cs => '\n' :: lineFeeds cs
  | c :: cs => c :: lineFeeds cs

theorem lineFeeds_cons {c : Char} {cs : List Char} (h : c = '\r' → cs.head? ≠ some '\n') :
    lineFeeds (c :: cs) = c :: lineFeeds cs := by
  rw [lineFeeds]
  rintro rest rfl rfl
  exact h rfl rfl

theorem intercalate_physicalLines (cs : List Char) :
    ['\n'].intercalate (physicalLines cs) = lineFeeds cs := by
  fun_induction lineFeeds cs with
  | case1 => rfl
  | case2 cs ih =>
      obtain ⟨line, lines, found⟩ := List.exists_cons_of_ne_nil (physicalLines_ne_nil cs)
      rw [physicalLines, found, List.intercalate_cons_cons, ← found, ih]
      rfl
  | case3 c cs carriage ih =>
      obtain ⟨line, lines, found⟩ := List.exists_cons_of_ne_nil (physicalLines_ne_nil cs)
      by_cases lineFeed : c = '\n'
      · subst lineFeed
        rw [physicalLines, found, List.intercalate_cons_cons, ← found, ih]
        rfl
      · rw [physicalLines_cons lineFeed ?_ found, ← ih, found]
        · cases lines <;> rfl
        · rintro rfl next
          obtain ⟨rest, rfl⟩ := List.head?_eq_some_iff.1 next
          exact carriage rest rfl rfl

theorem lineFeeds_append {as : List Char} (h : Separate as) (cs : List Char) :
    lineFeeds (as ++ cs) = as ++ lineFeeds cs := by
  induction as with
  | nil => rfl
  | cons c as ih =>
      rw [List.cons_append, lineFeeds_cons ?_, ih h.tail]
      · rfl
      · rintro rfl
        exact h.head_append cs

theorem lineFeeds_append_of_head (as : List Char) {cs : List Char} (h : cs.head? ≠ some '\n') :
    lineFeeds (as ++ cs) = lineFeeds as ++ lineFeeds cs := by
  fun_induction lineFeeds as with
  | case1 => rfl
  | case2 as ih => rw [List.cons_append, List.cons_append, lineFeeds, ih, List.cons_append]
  | case3 c as carriage ih =>
      rw [List.cons_append, lineFeeds_cons ?_, ih, List.cons_append]
      rintro rfl
      cases as with
      | nil => exact h
      | cons d as => simpa using carriage as

theorem lineFeeds_of_no_carriage {as : List Char} (h : '\r' ∉ as) (cs : List Char) :
    lineFeeds (as ++ cs) = as ++ lineFeeds cs := by
  induction as with
  | nil => rfl
  | cons c as ih =>
      obtain ⟨other, others⟩ := not_or.1 (List.mem_cons.not.1 h)
      rw [List.cons_append, lineFeeds_cons fun same => absurd same.symm other, ih others]
      rfl

theorem lineFeeds_of_no_lineFeed {as : List Char} (h : '\n' ∉ as) : lineFeeds as = as := by
  induction as with
  | nil => rfl
  | cons c as ih =>
      obtain ⟨_, others⟩ := not_or.1 (List.mem_cons.not.1 h)
      rw [lineFeeds_cons fun _ next => others (List.mem_of_mem_head? next), ih others]

/-- In front of a line feed a line loses at most a carriage return. -/
theorem exists_lineFeeds_lineFeed {as : List Char} (h : '\n' ∉ as) (cs : List Char) :
    ∃ bs, '\n' ∉ bs ∧ lineFeeds (as ++ '\n' :: cs) = bs ++ '\n' :: lineFeeds cs := by
  induction as with
  | nil => exact ⟨[], by simp, lineFeeds_cons (by simp)⟩
  | cons c as ih =>
      obtain ⟨other, others⟩ := not_or.1 (List.mem_cons.not.1 h)
      obtain ⟨bs, hbs, same⟩ := ih others
      by_cases carriage : c = '\r' ∧ (as ++ '\n' :: cs).head? = some '\n'
      · obtain ⟨rfl, next⟩ := carriage
        cases as with
        | nil => exact ⟨[], by simp, rfl⟩
        | cons d as => simp_all
      · refine ⟨c :: bs, by simp [other, hbs], ?_⟩
        rw [List.cons_append, lineFeeds_cons fun same next => carriage ⟨same, next⟩, same,
          List.cons_append]

end MarkupCascade.LogicalLine
