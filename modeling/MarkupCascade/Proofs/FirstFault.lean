import MarkupCascade.Proofs.Concatenation
import MarkupCascade.Proofs.Indentation

/-!
Templates that are refused. The lines of a template are read one after the other, and the first that
is at fault decides: no text below it makes a difference. Only of a document without components, or
with a block that is still open at its end, more text may make another one; and if a block is open,
then nothing in front of it is at fault, and no fault will be reported there.
-/

namespace MarkupCascade

open Outcome LogicalLine

namespace ReadError

/-- The fault is neither that a block has no end nor that there are no components. It is in a line,
and nothing that is written below takes it away. -/
def IsLasting : ReadError → Prop
  | .parse e => e.cause.rule ≠ .closedBlock ∧ e.cause.rule ≠ .someRoot
  | .oversized _ => True

theorem From.isLasting {line : Int} {e : ReadError} (h : e.From line) : e.IsLasting := by
  cases e with
  | parse e => exact h.1
  | oversized o => trivial

/-- There are components, and the fault is reported on the given line or on a later one. -/
def Behind (line : Int) : ReadError → Prop
  | .parse e => e.cause.rule ≠ .someRoot ∧ ∃ found, e.line = some found ∧ line ≤ found
  | .oversized _ => True

theorem From.behind {line : Int} : ∀ e, From line e → Behind line e
  | .parse _, h => ⟨h.1.2, h.2⟩
  | .oversized _, _ => trivial

end ReadError

/-- Below a block without an end, there are lines that go on with it, and all lines that are found
begin with it or later. -/
theorem LogicalLine.exists_split_below_of_unclosed {s : String} {n : Nat}
    (apart : ∀ c ∈ s.toList.getLast?, c ≠ '\r') (opened : (split s).unclosed = some n)
    (t : String) :
    ∃ more : Split, split (s ++ "\n" ++ t) = more.prepend (split s).lines
      ∧ (more.unclosed = none → more.lines ≠ [])
      ∧ (∀ l ∈ more.lines, n ≤ l.number) ∧ ∀ m ∈ more.unclosed, n ≤ m := by
  rw [split, unclosed_gather] at opened
  obtain ⟨o, still, rfl⟩ := Option.map_eq_some_iff.1 opened
  have first : o.number ≤ 1 + (physicalLines s.toList).length := by
    refine number_stillOpen_le _ ?_ o still
    rintro _ ⟨⟩
  refine ⟨_, split_below apart t, ?_, le_number_gather _ first ?_⟩
  · rw [still]
    exact lines_gather_some_ne_nil
  · rw [still]
    rintro _ ⟨⟩
    exact Nat.le_refl _

namespace Template

/-- What is read from the first of some lines stays as it is, and to those behind it only the place
of the last of them matters. -/
theorem exists_entries_append (before : Option Nesting) (ls : List LogicalLine) :
    ∃ next, ∀ more, entries before (ls ++ more) = (do
      let es ← entries before ls
      let others ← entries next more
      return es ++ others) := by
  induction ls generalizing before with
  | nil =>
      refine ⟨before, fun more => ?_⟩
      rw [List.nil_append]
      exact (bind_pure _).symm
  | cons l ls ih =>
      simp only [List.cons_append, entries_cons]
      cases step before l with
      | error e => exact ⟨none, fun more => rfl⟩
      | ok read =>
          obtain ⟨next, whole⟩ := ih (some read.2)
          refine ⟨next, fun more => ?_⟩
          change (entries (some read.2) (ls ++ more) >>= _) = _
          rw [whole more, bind_assoc]
          change _ = (entries (some read.2) ls >>= _) >>= _
          simp only [bind_assoc, pure_bind, List.cons_append]

end Template

open Template

namespace Component

/-- Why a document is refused: for a line of it, for a block without an end behind lines that are
read, or because there is no line. -/
theorem error_cases {source : String} {e : ReadError} (h : Component.parse source = .error e) :
    entries none (split source).lines = .error e
      ∨ ∃ es, entries none (split source).lines = .ok es
        ∧ ((∃ number, (split source).unclosed = some number ∧ e = .unclosed number)
          ∨ (split source).unclosed = none ∧ es = [] ∧ e = .parse ⟨.noComponents, none, none⟩) := by
  rw [Component.parse] at h
  cases read : entries none (split source).lines with
  | error e' =>
      rw [read] at h
      cases h
      exact .inl rfl
  | ok es =>
      rw [read] at h
      refine .inr ⟨es, rfl, ?_⟩
      cases unclosed : (split source).unclosed with
      | some number =>
          rw [unclosed] at h
          cases h
          exact .inl ⟨number, rfl, rfl⟩
      | none =>
          rw [unclosed] at h
          cases es with
          | cons e es => cases h
          | nil =>
              cases h
              exact .inr ⟨rfl, rfl, rfl⟩

variable {s : String}

theorem parse_below_of_isLasting (apart : ∀ c ∈ s.toList.getLast?, c ≠ '\r') {e : ReadError}
    (refused : Component.parse s = .error e) (lasting : e.IsLasting) (t : String) :
    Component.parse (s ++ "\n" ++ t) = .error e := by
  obtain fault | ⟨_, _, ⟨_, _, rfl⟩ | ⟨_, _, rfl⟩⟩ := error_cases refused
  · obtain ⟨next, whole⟩ := exists_entries_append none (split s).lines
    rw [Component.parse, split_below apart]
    dsimp only [Split.prepend]
    rw [whole, fault]
    rfl
  · exact absurd rfl lasting.1
  · exact absurd rfl lasting.2

/-- If a block is found to have no end, the lines before it can be read. -/
theorem exists_unclosed {e : ParseError} (refused : Component.parse s = .error (.parse e))
    (block : e.cause.rule = .closedBlock) :
    ∃ (n : Nat) (es : List Entry), e.line = some (n : Int) ∧ (split s).unclosed = some n
      ∧ entries none (split s).lines = .ok es := by
  obtain fault | ⟨es, read, ⟨n, opened, same⟩ | ⟨_, _, same⟩⟩ := error_cases refused
  · have located := fails_entries_from (fun l _ => Int.natCast_nonneg l.number) none _ fault
    exact absurd block located.isLasting.1
  · cases same
    exact ⟨n, es, rfl, opened, read⟩
  · cases same
    cases block

theorem fails_parse_behind (apart : ∀ c ∈ s.toList.getLast?, c ≠ '\r') {n : Nat}
    (opened : (split s).unclosed = some n) {es : List Entry}
    (read : entries none (split s).lines = .ok es) (t : String) :
    Fails (ReadError.Behind n) (Component.parse (s ++ "\n" ++ t)) := by
  obtain ⟨more, whole, found, low, low'⟩ := exists_split_below_of_unclosed apart opened t
  have lines : (split (s ++ "\n" ++ t)).lines = (split s).lines ++ more.lines := by rw [whole]; rfl
  have unclosed : (split (s ++ "\n" ++ t)).unclosed = more.unclosed := by rw [whole]; rfl
  intro e refused
  obtain fault | ⟨es', read', ⟨m, opened', rfl⟩ | ⟨closed, rfl, rfl⟩⟩ := error_cases refused
  · obtain ⟨next, others⟩ := exists_entries_append none (split s).lines
    rw [lines, others, read] at fault
    have located : Fails (ReadError.From n) (entries next more.lines) :=
      fails_entries_from (fun l hl => Int.ofNat_le.2 (low l hl)) next
    exact ((located.bind fun _ => fails_pure _) e fault).behind
  · exact ⟨nofun, m, rfl, Int.ofNat_le.2 (low' m (unclosed ▸ opened'))⟩
  · -- The open block has been completed to a line, so not all lines can be missing.
    have missing := List.forall₂_nil_right_iff.1 ((entries_eq_ok_iff _ _ _).1 read').1
    rw [lines] at missing
    exact absurd (List.append_eq_nil_iff.1 missing).2 (found (unclosed ▸ closed))

/-- A template that is refused, and more text below it. For a fault in one of its lines it is
refused as before. If a block in it has no end, then the whole is not refused for having no
component, and every fault that it is refused for stands on the line where the block begins or
further down. -/
theorem parse_below_of_error (apart : ∀ c ∈ s.toList.getLast?, c ≠ '\r') (t : String) :
    (∀ e, Component.parse s = .error e → e.IsLasting →
        Component.parse (s ++ "\n" ++ t) = .error e)
      ∧ ∀ e, Component.parse s = .error (.parse e) → e.cause.rule = .closedBlock →
        ∃ n, e.line = some n ∧ ∀ e', Component.parse (s ++ "\n" ++ t) = .error (.parse e') →
          e'.cause.rule ≠ .someRoot ∧ ∃ m, e'.line = some m ∧ n ≤ m := by
  constructor
  · intro e refused lasting
    exact parse_below_of_isLasting apart refused lasting t
  · intro e refused block
    obtain ⟨n, es, line, opened, read⟩ := exists_unclosed refused block
    exact ⟨n, line, fun e' => fails_parse_behind apart opened read t (.parse e')⟩

/-- Below a line without a class name, and below a block without an end: a line that is indented by
three. -/
theorem parse_below_of_error_indented :
    Component.parse "a\n    1" = .error (.parse ⟨.unexpectedToken "1", some 2, some 5⟩)
      ∧ Component.parse "a\n    1\n   b" = .error (.parse ⟨.unexpectedToken "1", some 2, some 5⟩)
      ∧ Component.parse "\na \x7b" = .error (.unclosed 2)
      ∧ ∃ e, Component.parse "\na \x7b\n\x7d\n   b" = .error (.parse e)
        ∧ e.cause = .indentation 3 ∧ ∃ m, e.line = some m ∧ 2 ≤ m := by
  have wrong : Component.parse "a\n    1"
      = .error (.parse ⟨.unexpectedToken "1", some 2, some 5⟩) := by cbv
  have opened : Component.parse "\na \x7b" = .error (.unclosed 2) := by cbv
  have indented : Component.parse "\na \x7b\n\x7d\n   b"
      = .error (.parse ⟨.indentation 3, some 4, none⟩) := by cbv
  have lasting : ReadError.IsLasting (.parse ⟨.unexpectedToken "1", some 2, some 5⟩) := by
    constructor <;> decide
  have still := (parse_below_of_error (by simp) "   b").1 _ wrong lasting
  obtain ⟨n, first, behind⟩ := (parse_below_of_error (by simp) "\x7d\n   b").2 _ opened rfl
  cases first
  exact ⟨wrong, still, opened, _, indented, rfl, (behind _ indented).2⟩

end Component

end MarkupCascade
