import MarkupCascade.Proofs.Layout
import MarkupCascade.Proofs.PhysicalLine

/-!
On which lines of a document things stand. The logical lines take up physical lines one after the
other, and the keys in the text of one of them stand, in their order, on lines between its first
and its last.
-/

namespace MarkupCascade

namespace LogicalLine

/-- The number of its last physical line. -/
def lastNumber (l : LogicalLine) : Nat := l.number + l.text.toList.count '\n'

/-- Logical lines one after the other, on physical lines from a first up to a last. -/
inductive Successive (last : Nat) : Nat → List LogicalLine → Prop
  | nil {first : Nat} : Successive last first []
  | cons {first : Nat} {l : LogicalLine} {ls : List LogicalLine} :
      first ≤ l.number → l.lastNumber ≤ last → Successive last (l.lastNumber + 1) ls →
      Successive last first (l :: ls)

theorem Successive.anti {first first' last : Nat} {ls : List LogicalLine} (h : first' ≤ first)
    (successive : Successive last first ls) : Successive last first' ls := by
  cases successive with
  | nil => exact .nil
  | cons low high rest => exact .cons (Nat.le_trans h low) high rest

theorem Successive.le_number {first last : Nat} {ls : List LogicalLine}
    (h : Successive last first ls) : ∀ l ∈ ls, first ≤ l.number := by
  induction h with
  | nil => exact List.forall_mem_nil _
  | @cons first l ls low _ _ ih =>
      refine List.forall_mem_cons.2 ⟨low, fun m hm => low.trans ?_⟩
      exact (Nat.le_add_right l.number _).trans ((Nat.le_succ _).trans (ih m hm))

/-- No two logical lines have a physical line in common. -/
theorem Successive.pairwise {first last : Nat} {ls : List LogicalLine}
    (h : Successive last first ls) : ls.Pairwise fun l l' => l.lastNumber < l'.number := by
  induction h with
  | nil => exact .nil
  | cons _ _ rest ih => exact .cons (fun m hm => rest.le_number m hm) ih

namespace Open

/-- The number of the last physical line that was found. -/
def lastNumber (o : Open) : Nat := o.number + o.text.count '\n'

theorem lastNumber_close (o : Open) : o.close.lastNumber = o.lastNumber := by
  simp [LogicalLine.lastNumber, lastNumber, close]

variable {pending : Option Open} {number : Nat} {line : List Char}

theorem number_advance (pending : Option Open) (number : Nat) (line : List Char) :
    (advance pending number line).number = pending.elim number (·.number) := by
  cases pending <;> rfl

theorem lastNumber_advance (reached : ∀ o ∈ pending, o.lastNumber + 1 = number)
    (h : '\n' ∉ line) : (advance pending number line).lastNumber = number := by
  cases pending with
  | none =>
      have absent : '\n' ∉ line.dropWhile isIndent := fun inside =>
        h (List.dropWhile_subset _ inside)
      rw [lastNumber, advance, start, List.count_eq_zero.2 absent, Nat.add_zero]
  | some o =>
      rw [← reached o rfl, lastNumber, advance, extend, List.count_append, List.count_cons_self,
        List.count_eq_zero.2 h]
      rfl

end Open

/-- A line that is still open has taken up all physical lines since its first. -/
theorem successive_gather {last : Nat} (number : Nat) (pending : Option Open)
    {lines : List (List Char)} (reached : ∀ o ∈ pending, o.lastNumber + 1 = number)
    (ends : number + lines.length = last + 1) (h : ∀ line ∈ lines, '\n' ∉ line) :
    Successive last (pending.elim number (·.number)) (gather number pending lines).lines := by
  induction lines generalizing number pending with
  | nil => exact .nil
  | cons line rest ih =>
      obtain ⟨first, others⟩ := List.forall_mem_cons.1 h
      rw [List.length_cons] at ends
      have closed := ih (number + 1) none nofun (by omega) others
      rw [gather]
      split
      case isTrue ignored =>
          obtain rfl : pending = none := by simp_all
          exact closed.anti (Nat.le_succ number)
      case isFalse =>
          have here := Open.lastNumber_advance reached first
          dsimp only
          rw [← Open.number_advance pending number line]
          split
          · refine ih (number + 1) (some _) ?_ (by omega) others
            rintro _ ⟨⟩
            rw [here]
          · refine .cons (Nat.le_refl _) ?_ ?_
            · rw [Open.lastNumber_close, here]
              omega
            · rw [Open.lastNumber_close, here]
              exact closed

theorem successive_split (source : String) :
    Successive (physicalLines source.toList).length 1 (split source).lines :=
  successive_gather 1 none nofun (Nat.add_comm _ _) (no_lineFeed_of_mem_physicalLines _)

end LogicalLine

namespace Fragment

variable {here : Position} {ls : List Lexeme} {cs : List Char}

theorem Spread.line_bounds (h : Spread here ls cs) :
    ∀ l ∈ ls, here.line ≤ l.start.line ∧ l.start.line ≤ (here.after cs).line := by
  induction h with
  | nil => simp
  | @cons here gap t ls cs _ _ _ ih =>
      have start := here.line_le_after gap
      have past := (here.after gap).line_le_after t.spell
      have rest := ((here.after gap).after t.spell).line_le_after cs
      rw [Position.after_append, Position.after_append]
      refine List.forall_mem_cons.2 ⟨⟨start, past.trans rest⟩, fun l hl => ?_⟩
      obtain ⟨low, high⟩ := ih l hl
      exact ⟨(start.trans past).trans low, high⟩

/-- Tokens stand on the lines of a text in their order. -/
theorem Spread.pairwise_line (h : Spread here ls cs) :
    ls.Pairwise fun l l' => l.start.line ≤ l'.start.line := by
  induction h with
  | nil => exact .nil
  | @cons here gap t ls cs _ _ spread ih =>
      refine .cons (fun l hl => ?_) ih
      exact ((here.after gap).line_le_after t.spell).trans (spread.line_bounds l hl).1

/-- The line of a token as an attribute has it. -/
abbrev Lexeme.line (l : Lexeme) : Int := l.start.line

theorem line_sublist_of_attribute {a : Attribute} (h : AttributeTokens a ls) :
    [a.line].Sublist (ls.map (·.line)) := by
  cases h with
  | plain _ | gated _ => exact (List.nil_sublist _).cons_cons _

theorem line_sublist_of_series {as : List Attribute} (h : Series AttributeTokens as ls) :
    (as.map (·.line)).Sublist (ls.map (·.line)) := by
  induction h with
  | nil => exact .slnil
  | last first => exact line_sublist_of_attribute first
  | cons first _ ih =>
      rw [List.map_append]
      exact (line_sublist_of_attribute first).append (ih.cons _)

/-- The lines of the attributes are those of some of the tokens. -/
theorem line_sublist_of_declaration {required : Bool} {d : Declaration}
    (h : DeclarationTokens required d ls) :
    (d.attributes.map (·.line)).Sublist (ls.map (·.line)) := by
  cases h with
  | name _ => exact List.nil_sublist _
  | block series =>
      have inside := line_sublist_of_series series
      rw [List.map_cons, List.map_cons, List.map_append]
      exact ((inside.trans (List.sublist_append_left _ _)).cons _).cons _

end Fragment

namespace Declaration

variable {required : Bool} {d : Declaration}

theorem Layout.lines {cs : List Char} (h : Layout required d cs) :
    (d.attributes.map (·.line)).Pairwise (· ≤ ·)
      ∧ ∀ a ∈ d.attributes, 1 ≤ a.line ∧ a.line ≤ 1 + cs.count '\n' := by
  obtain ⟨ls, spread, tokens, _⟩ := h
  have inside := Fragment.line_sublist_of_declaration tokens
  have ascending : (ls.map (·.line)).Pairwise (· ≤ ·) :=
    List.pairwise_map.2 (spread.pairwise_line.imp Int.ofNat_le.2)
  refine ⟨ascending.sublist inside, fun a ha => ?_⟩
  obtain ⟨l, hl, same⟩ := List.mem_map.1 (inside.subset (List.mem_map_of_mem ha))
  obtain ⟨low, high⟩ := spread.line_bounds l hl
  rw [Position.line_after] at high
  change (l.start.line : Int) = a.line at same
  simp only at low high
  omega

/-- Where a text begins on a line of a document, its attributes stand between that line and the one
that the text ends on. -/
theorem lines_of_parse {text : String} {line indent : Int}
    (h : Declaration.parse required text line indent = .ok d) :
    (line :: d.attributes.map (·.line)).Pairwise (· ≤ ·)
      ∧ ∀ a ∈ d.attributes, a.line ≤ line + text.toList.count '\n' := by
  obtain ⟨e, layout, _, rfl⟩ := Declaration.parse_eq_ok_iff.1 h
  obtain ⟨ascending, bounds⟩ := layout.lines
  simp only [movedTo, List.pairwise_cons, List.pairwise_map, List.forall_mem_map]
  refine ⟨⟨fun a ha => ?_, (List.pairwise_map.1 ascending).imp fun h => ?_⟩, fun a ha => ?_⟩
  · have := (bounds a ha).1
    omega
  · omega
  · have := (bounds a ha).2
    omega

end Declaration

end MarkupCascade
