import MarkupCascade.Text.Blank
import Mathlib.Data.List.DropRight
import Mathlib.Data.List.TakeWhile

/-!
White space at the ends of a text. A text is what is left of it by `strip`, between two runs of
white space, and white space that is put around a text makes no difference to what is left.
-/

namespace MarkupCascade.Text

/-- White space and nothing else. -/
abbrev IsBlank (cs : List Char) : Prop := ∀ c ∈ cs, isBlank c = true

theorem IsBlank.notMem {c : Char} {blank : List Char} (h : IsBlank blank)
    (solid : isBlank c = false) : c ∉ blank := by
  intro inside
  rw [h c inside] at solid
  contradiction

theorem not_isBlank_of_toNat {c : Char} (low : 32 < c.toNat) (high : c.toNat < 133) :
    isBlank c = false := by
  rw [Bool.eq_false_iff]
  intro blank
  simp only [isBlank, Bool.or_eq_true, Bool.and_eq_true, decide_eq_true_eq, beq_iff_eq] at blank
  omega

theorem trimEnd_cons {c : Char} (h : isBlank c = false) (cs : List Char) :
    trimEnd (c :: cs) = c :: trimEnd cs := by
  rw [trimEnd, List.reverse_cons, List.dropWhile_append]
  split
  · rename_i blank
    simp_all [trimEnd]
  · simp [trimEnd]

theorem trimEnd_append_cons {c : Char} (h : isBlank c = false) (as cs : List Char) :
    trimEnd (as ++ c :: cs) = as ++ c :: trimEnd cs := by
  have kept : (c :: cs).reverse.dropWhile isBlank = (c :: trimEnd cs).reverse := by
    rw [← trimEnd_cons h, trimEnd, List.reverse_reverse]
  rw [trimEnd, List.reverse_append, List.dropWhile_append, kept]
  simp

theorem trimEnd_cons_congr {c : Char} {as bs : List Char} (h : trimEnd as = trimEnd bs) :
    trimEnd (c :: as) = trimEnd (c :: bs) := by
  have same := List.reverse_inj.1 h
  simp only [trimEnd, List.reverse_cons, List.dropWhile_append, same]

theorem trimEnd_concat_blank {c : Char} (h : isBlank c = true) (cs : List Char) :
    trimEnd (cs ++ [c]) = trimEnd cs := by
  rw [trimEnd, List.reverse_append, List.reverse_singleton, List.singleton_append,
    List.dropWhile_cons_of_pos h, ← trimEnd]

theorem strip_cons_blank {c : Char} (h : isBlank c = true) (cs : List Char) :
    strip (c :: cs) = strip cs := by
  rw [strip, List.dropWhile_cons_of_pos h, ← strip]

theorem strip_cons {c : Char} (h : isBlank c = false) (cs : List Char) :
    strip (c :: cs) = c :: trimEnd cs := by
  rw [strip, List.dropWhile_cons_of_neg (by simp [h]), trimEnd_cons h]

theorem strip_concat_blank {c : Char} (h : isBlank c = true) (cs : List Char) :
    strip (cs ++ [c]) = strip cs := by
  induction cs with
  | nil => simp [strip, h]
  | cons d cs ih =>
      by_cases blank : isBlank d = true
      · rw [List.cons_append, strip_cons_blank blank, strip_cons_blank blank, ih]
      · rw [strip, strip, List.cons_append, List.dropWhile_cons_of_neg blank,
          List.dropWhile_cons_of_neg blank, ← List.cons_append, trimEnd_concat_blank h]

theorem strip_blank_append {blank : List Char} (h : IsBlank blank) (cs : List Char) :
    strip (blank ++ cs) = strip cs := by
  induction blank with
  | nil => rfl
  | cons c blank ih =>
      obtain ⟨first, others⟩ := List.forall_mem_cons.1 h
      rw [List.cons_append, strip_cons_blank first, ih others]

theorem strip_append_blank {blank : List Char} (h : IsBlank blank) (cs : List Char) :
    strip (cs ++ blank) = strip cs := by
  induction blank generalizing cs with
  | nil => rw [List.append_nil]
  | cons c blank ih =>
      obtain ⟨first, others⟩ := List.forall_mem_cons.1 h
      rw [List.append_cons, ih others, strip_concat_blank first]

theorem exists_eq_trimEnd (cs : List Char) : ∃ after, IsBlank after ∧ cs = trimEnd cs ++ after := by
  refine ⟨(cs.reverse.takeWhile isBlank).reverse, ?_, ?_⟩
  · intro c hc
    exact List.mem_takeWhile_imp (List.mem_reverse.1 hc)
  · rw [trimEnd, ← List.reverse_append, List.takeWhile_append_dropWhile, List.reverse_reverse]

theorem exists_eq_strip (cs : List Char) :
    ∃ before after, IsBlank before ∧ IsBlank after ∧ cs = before ++ (strip cs ++ after) := by
  obtain ⟨after, hafter, whole⟩ := exists_eq_trimEnd (cs.dropWhile isBlank)
  refine ⟨cs.takeWhile isBlank, after, fun _ hc => List.mem_takeWhile_imp hc, hafter, ?_⟩
  rw [strip, ← whole, List.takeWhile_append_dropWhile]

/-- A text without white space is left as it is. -/
theorem strip_eq_self {cs : List Char} (h : ∀ c ∈ cs, isBlank c = false) : strip cs = cs := by
  obtain ⟨before, after, hbefore, hafter, whole⟩ := exists_eq_strip cs
  have empty {blank : List Char} (blanks : IsBlank blank) (inside : ∀ c ∈ blank, c ∈ cs) :
      blank = [] :=
    List.eq_nil_iff_forall_not_mem.2 fun c hc => by
      simpa [h c (inside c hc)] using blanks c hc
  rw [empty hbefore fun c hc => whole ▸ List.mem_append_left _ hc,
    empty hafter fun c hc => whole ▸ List.mem_append_right _ (List.mem_append_right _ hc),
    List.nil_append, List.append_nil] at whole
  exact whole.symm

/-- Only white space is dropped. -/
theorem mem_trimEnd {c : Char} {cs : List Char} (hc : c ∈ cs) (h : isBlank c = false) :
    c ∈ trimEnd cs := by
  obtain ⟨as, bs, rfl⟩ := List.append_of_mem hc
  rw [trimEnd_append_cons h]
  simp

theorem mem_of_mem_trimEnd {c : Char} {cs : List Char} (h : c ∈ trimEnd cs) : c ∈ cs :=
  List.mem_reverse.1 (List.dropWhile_subset _ (List.mem_reverse.1 h))

theorem strip_trimEnd (cs : List Char) : strip (trimEnd cs) = strip cs := by
  obtain ⟨after, hafter, whole⟩ := exists_eq_trimEnd cs
  rw [← strip_append_blank hafter, ← whole]

theorem mem_of_mem_strip {c : Char} {cs : List Char} (h : c ∈ strip cs) : c ∈ cs :=
  List.dropWhile_subset _ (mem_of_mem_trimEnd h)

theorem mem_strip {c : Char} {cs : List Char} (hc : c ∈ cs) (h : isBlank c = false) :
    c ∈ strip cs := by
  obtain ⟨before, after, hbefore, hafter, whole⟩ := exists_eq_strip cs
  rw [whole] at hc
  simpa [IsBlank.notMem hbefore h, IsBlank.notMem hafter h] using hc

/-- Nothing more is dropped the second time. -/
theorem strip_strip (cs : List Char) : strip (strip cs) = strip cs := by
  have twice : strip (strip cs) = strip (cs.dropWhile isBlank) := strip_trimEnd _
  rw [twice, strip, List.dropWhile_idempotent, ← strip]

/-- A text with white space around it. -/
def Padded (inner cs : List Char) : Prop :=
  strip inner = inner
    ∧ ∃ before after, IsBlank before ∧ IsBlank after ∧ cs = before ++ (inner ++ after)

theorem padded_iff {inner cs : List Char} : Padded inner cs ↔ strip cs = inner := by
  constructor
  · intro ⟨trimmed, before, after, hbefore, hafter, whole⟩
    rw [whole, strip_blank_append hbefore, strip_append_blank hafter, trimmed]
  · intro same
    obtain ⟨before, after, hbefore, hafter, whole⟩ := exists_eq_strip cs
    rw [same] at whole
    exact ⟨by rw [← same, strip_strip], before, after, hbefore, hafter, whole⟩

/-! Two characters in a row do not come about where a text is put in front that has not the first of
them, or one behind that has not the second; so they are not made or lost by white space. -/

theorem pair_infix_append_left {a b : Char} {front : List Char} (h : a ∉ front) (cs : List Char) :
    [a, b] <:+: front ++ cs ↔ [a, b] <:+: cs := by
  induction front with
  | nil => rfl
  | cons c front ih =>
      obtain ⟨other, others⟩ := not_or.1 (List.mem_cons.not.1 h)
      rw [List.cons_append, List.infix_cons_iff, List.cons_prefix_cons, ih others]
      simp [other]

theorem pair_infix_append_right {a b : Char} {back : List Char} (h : b ∉ back) (cs : List Char) :
    [a, b] <:+: cs ++ back ↔ [a, b] <:+: cs := by
  have mirrored := pair_infix_append_left (b := a) (List.mem_reverse.not.2 h) cs.reverse
  have turned (ds : List Char) : [b, a] <:+: ds.reverse ↔ [a, b] <:+: ds :=
    @List.reverse_infix _ [a, b] ds
  rwa [← List.reverse_append, turned, turned] at mirrored

theorem pair_infix_strip {a b : Char} (ha : isBlank a = false) (hb : isBlank b = false)
    (cs : List Char) : [a, b] <:+: strip cs ↔ [a, b] <:+: cs := by
  obtain ⟨before, after, hbefore, hafter, whole⟩ := exists_eq_strip cs
  have outer := (pair_infix_append_left (b := b) (hbefore.notMem ha) (strip cs ++ after)).trans
    (pair_infix_append_right (hafter.notMem hb) (strip cs))
  rw [← whole] at outer
  exact outer.symm

end MarkupCascade.Text
