import MarkupCascade.Proofs.Closing
import MarkupCascade.Proofs.Numbering

/-!
How physical lines are gathered one after the other. Each of them is passed over, goes into the
logical line that is open or completes it, and what happens depends on the lines before it only
through that open line. So a document is gathered piece by piece; the numbers of its lines are
counted on from wherever a piece begins.
-/

namespace MarkupCascade.LogicalLine

/-- What comes of a physical line: the logical line that is open behind it, and the one that it
completes. -/
def afterLine (pending : Option Open) (number : Nat) (line : List Char) :
    Option Open × List LogicalLine :=
  if pending.isNone && isIgnored line then (none, [])
  else
    let o := Open.advance pending number line
    if 0 < o.balance then (some o, []) else (none, [o.close])

theorem afterLine_cases (pending : Option Open) (number : Nat) (line : List Char) :
    (pending = none ∧ afterLine pending number line = (none, []))
      ∨ afterLine pending number line = (some (Open.advance pending number line), [])
      ∨ afterLine pending number line = (none, [(Open.advance pending number line).close]) := by
  rw [afterLine]
  split
  case isTrue ignored => exact .inl ⟨by simp_all, rfl⟩
  case isFalse =>
      dsimp only
      split
      · exact .inr (.inl rfl)
      · exact .inr (.inr rfl)

theorem gather_cons (number : Nat) (pending : Option Open) (line : List Char)
    (rest : List (List Char)) :
    gather number pending (line :: rest)
      = (gather (number + 1) (afterLine pending number line).1 rest).prepend
          (afterLine pending number line).2 := by
  rw [gather, afterLine]
  split
  · rfl
  · dsimp only
    split <;> rfl

/-- The logical line that is open behind some physical lines. -/
def stillOpen (number : Nat) (pending : Option Open) : List (List Char) → Option Open
  | [] => pending
  | line :: rest => stillOpen (number + 1) (afterLine pending number line).1 rest

theorem unclosed_gather (number : Nat) (pending : Option Open) (lines : List (List Char)) :
    (gather number pending lines).unclosed = (stillOpen number pending lines).map (·.number) := by
  induction lines generalizing number pending with
  | nil => rfl
  | cons line lines ih =>
      rw [gather_cons, stillOpen, ← ih]
      rfl

theorem Split.prepend_prepend (ls ls' : List LogicalLine) (s : Split) :
    (s.prepend ls').prepend ls = s.prepend (ls ++ ls') := by
  simp [prepend]

/-- What is found in the first of some lines stays as it is. -/
theorem gather_append (number : Nat) (pending : Option Open) (lines more : List (List Char)) :
    gather number pending (lines ++ more)
      = (gather (number + lines.length) (stillOpen number pending lines) more).prepend
          (gather number pending lines).lines := by
  induction lines generalizing number pending with
  | nil => rfl
  | cons line lines ih =>
      rw [List.cons_append, gather_cons, ih, gather_cons, stillOpen, List.length_cons,
        Nat.add_right_comm, Nat.add_assoc, Split.prepend_prepend]
      rfl

/-! Where logical lines begin. -/

theorem number_stillOpen_le {number : Nat} {pending : Option Open} (lines : List (List Char))
    (low : ∀ o ∈ pending, o.number ≤ number) :
    ∀ o ∈ stillOpen number pending lines, o.number ≤ number + lines.length := by
  induction lines generalizing number pending with
  | nil => exact low
  | cons line lines ih =>
      rw [stillOpen, List.length_cons, Nat.add_comm lines.length, ← Nat.add_assoc]
      refine ih fun o ho => ?_
      obtain ⟨_, done⟩ | opened | closed := afterLine_cases pending number line
      · rw [done] at ho
        cases ho
      · rw [opened] at ho
        cases ho
        rw [Open.number_advance]
        cases pending with
        | none => exact Nat.le_succ number
        | some o => exact Nat.le_succ_of_le (low o rfl)
      · rw [closed] at ho
        cases ho

/-- No line that is found begins before the lines that are gathered. -/
theorem le_number_gather {n number : Nat} {pending : Option Open} (lines : List (List Char))
    (first : n ≤ number) (low : ∀ o ∈ pending, n ≤ o.number) :
    (∀ l ∈ (gather number pending lines).lines, n ≤ l.number)
      ∧ ∀ m ∈ (gather number pending lines).unclosed, n ≤ m := by
  induction lines generalizing number pending with
  | nil => simpa [gather] using low
  | cons line lines ih =>
      have advanced : n ≤ (Open.advance pending number line).number := by
        rw [Open.number_advance]
        cases pending with
        | none => exact first
        | some o => exact low o rfl
      have noneOpen : ∀ o ∈ (none : Option Open), n ≤ o.number := by rintro _ ⟨⟩
      rw [gather_cons]
      obtain ⟨_, done⟩ | opened | closed := afterLine_cases pending number line
      · rw [done]
        exact ih (Nat.le_succ_of_le first) noneOpen
      · rw [opened]
        exact ih (Nat.le_succ_of_le first) (by simpa using advanced)
      · rw [closed]
        obtain ⟨found, unclosed⟩ := ih (Nat.le_succ_of_le first) noneOpen
        exact ⟨List.forall_mem_cons.2 ⟨advanced, found⟩, unclosed⟩

/-- A line that is open is completed or left unclosed, but never lost. -/
theorem lines_gather_some_ne_nil {number : Nat} {o : Open} {lines : List (List Char)}
    (h : (gather number (some o) lines).unclosed = none) :
    (gather number (some o) lines).lines ≠ [] := by
  induction lines generalizing number o with
  | nil => cases h
  | cons line lines ih =>
      rw [gather_cons] at h ⊢
      obtain ⟨absurd, _⟩ | opened | closed := afterLine_cases (some o) number line
      · cases absurd
      · rw [opened] at h ⊢
        exact ih h
      · rw [closed]
        exact List.cons_ne_nil _ _

/-! Lines that stand further down. -/

def movedBy (k : Nat) (l : LogicalLine) : LogicalLine := { l with number := l.number + k }

def Open.movedBy (k : Nat) (o : Open) : Open := { o with number := o.number + k }

def Split.movedBy (k : Nat) (s : Split) : Split :=
  ⟨s.lines.map (·.movedBy k), s.unclosed.map (· + k)⟩

theorem Open.advance_movedBy (k : Nat) (pending : Option Open) (number : Nat)
    (line : List Char) :
    advance (pending.map (·.movedBy k)) (number + k) line
      = (advance pending number line).movedBy k := by
  cases pending <;> rfl

theorem afterLine_movedBy (k : Nat) (pending : Option Open) (number : Nat) (line : List Char) :
    afterLine (pending.map (·.movedBy k)) (number + k) line
      = ((afterLine pending number line).1.map (·.movedBy k),
        (afterLine pending number line).2.map (·.movedBy k)) := by
  rw [afterLine, afterLine, Option.isNone_map]
  split
  · rfl
  · rw [Open.advance_movedBy]
    dsimp only [Open.movedBy]
    split <;> rfl

/-- Counting from another number changes the numbers of the lines, and nothing else. -/
theorem gather_movedBy (k number : Nat) (pending : Option Open) (lines : List (List Char)) :
    gather (number + k) (pending.map (·.movedBy k)) lines
      = (gather number pending lines).movedBy k := by
  induction lines generalizing number pending with
  | nil => simp [gather, Split.movedBy, Open.movedBy, Function.comp_def]
  | cons line lines ih =>
      rw [gather_cons, gather_cons, afterLine_movedBy, Nat.add_right_comm, ih]
      simp [Split.prepend, Split.movedBy]

end MarkupCascade.LogicalLine
