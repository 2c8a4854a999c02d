import MarkupCascade.LogicalLine
import MarkupCascade.Proofs.Blank
import MarkupCascade.Proofs.Lexical
import MarkupCascade.Proofs.Outcome
import MarkupCascade.Proofs.PhysicalLine

/-!
What a logical line gives: its depth, which is a matter of its indent alone, and its declaration,
which sets no key twice without a condition. And which lines are found in a text: those that were
joined by line feeds, but for the ones that say nothing.
-/

namespace MarkupCascade

open Outcome

namespace Attribute

/-- The keys that are set without a condition. -/
def plainKeys (attributes : List Attribute) : List String :=
  (attributes.filter (·.condition.isNone)).map (·.key)

theorem plainKeys_cons_of_isSome {a : Attribute} (h : a.condition.isSome = true)
    (attributes : List Attribute) : plainKeys (a :: attributes) = plainKeys attributes := by
  have gated : a.condition.isNone = false := by simpa using h
  simp [plainKeys, gated]

theorem plainKeys_cons_of_isNone {a : Attribute} (h : a.condition.isNone = true)
    (attributes : List Attribute) :
    plainKeys (a :: attributes) = a.key :: plainKeys attributes := by
  simp [plainKeys, h]

theorem firstRepeated?_go_eq_none_iff (seen : List String) (attributes : List Attribute) :
    firstRepeated?.go seen attributes = none
      ↔ (plainKeys attributes).Nodup ∧ ∀ key ∈ plainKeys attributes, key ∉ seen := by
  induction attributes generalizing seen with
  | nil => simp [firstRepeated?.go, plainKeys]
  | cons a attributes ih =>
      rw [firstRepeated?.go]
      split
      · rename_i gated
        rw [ih, plainKeys_cons_of_isSome gated]
      · rename_i plain
        rw [plainKeys_cons_of_isNone (by simpa using plain)]
        split
        · rename_i repeated
          simp_all
        · rename_i fresh
          rw [ih, List.nodup_cons]
          simp only [List.contains_eq_mem, decide_eq_true_eq] at fresh
          grind

theorem firstRepeated?_eq_none_iff (attributes : List Attribute) :
    firstRepeated? attributes = none ↔ (plainKeys attributes).Nodup := by
  simp [firstRepeated?, firstRepeated?_go_eq_none_iff]

/-- Lines make no difference to the keys that are set. -/
theorem plainKeys_map_line (line : Attribute → Int) (attributes : List Attribute) :
    plainKeys (attributes.map fun a => { a with line := line a }) = plainKeys attributes := by
  simp only [plainKeys, List.filter_map, List.map_map]
  rfl

end Attribute

namespace LogicalLine

theorem declaration_eq_ok_iff {required : Bool} {l : LogicalLine} {d : Declaration} :
    l.declaration required = .ok d
      ↔ Declaration.parse required l.text l.number l.indent.length = .ok d
        ∧ (Attribute.plainKeys d.attributes).Nodup := by
  rw [declaration, bind_eq_ok_iff]
  constructor
  · intro given
    obtain ⟨d', parsed, h⟩ := given
    split at h
    · exact absurd h throw_ne_ok
    · rename_i distinct
      cases pure_eq_ok_iff.1 h
      exact ⟨parsed, (Attribute.firstRepeated?_eq_none_iff _).1 distinct⟩
  · intro given
    obtain ⟨parsed, distinct⟩ := given
    refine ⟨d, parsed, ?_⟩
    rw [(Attribute.firstRepeated?_eq_none_iff _).2 distinct]
    rfl

theorem depth_eq_ok_iff {l : LogicalLine} {d : Nat} :
    l.depth = .ok d ↔ '\t' ∉ l.indent.toList ∧ l.indent.length = 4 * d := by
  simp only [depth]
  split
  · rename_i uneven
    simp only [List.contains_eq_mem, Bool.or_eq_true, decide_eq_true_eq, bne_iff_ne] at uneven
    simp only [reduceCtorEq, false_iff]
    intro given
    obtain ⟨noTab, width⟩ := given
    exact uneven.elim noTab fun h => h (by omega)
  · rename_i even
    simp only [List.contains_eq_mem, Bool.or_eq_true, decide_eq_true_eq, bne_iff_ne, not_or,
      ne_eq, Decidable.not_not] at even
    simp only [Except.ok.injEq]
    exact ⟨fun h => ⟨even.1, by omega⟩, fun h => by omega⟩

/-- Spaces and tabs. -/
abbrev IsIndent (indent : List Char) : Prop := ∀ c ∈ indent, isIndent c = true

theorem separate_of_isIndent {indent : List Char} (h : IsIndent indent) : Separate indent := by
  refine ⟨fun inside => absurd (h _ inside) (by decide), ?_⟩
  rintro c last rfl
  exact absurd (h _ (List.mem_of_getLast? last)) (by decide)

theorem eq_space_of_isIndent {c : Char} (h : isIndent c = true) (noTab : c ≠ '\t') : c = ' ' := by
  simpa [isIndent, noTab] using h

namespace Open

theorem isIndent_start (number : Nat) (line : List Char) : IsIndent (start number line).indent :=
  fun _ h => by simpa using List.mem_takeWhile_imp h

theorem isIndent_advance {pending : Option Open} (h : ∀ o ∈ pending, IsIndent o.indent)
    (number : Nat) (line : List Char) : IsIndent (advance pending number line).indent := by
  cases pending with
  | none => exact isIndent_start number line
  | some o => exact h o rfl

end Open

theorem isIndent_of_mem_gather {number : Nat} {pending : Option Open}
    (h : ∀ o ∈ pending, IsIndent o.indent) (lines : List (List Char)) :
    ∀ l ∈ (gather number pending lines).lines, IsIndent l.indent.toList := by
  induction lines generalizing number pending with
  | nil => simp [gather]
  | cons line rest ih =>
      have advanced := Open.isIndent_advance h number line
      rw [gather]
      split
      · exact ih (by simp)
      · dsimp only
        split
        · exact ih (by simpa using advanced)
        · intro l hl
          obtain rfl | hl := List.mem_cons.1 hl
          · simpa [Open.close] using advanced
          · exact ih (by simp) l hl

/-- The indent of a logical line consists of spaces and tabs. -/
theorem isIndent_of_mem_split (source : String) :
    ∀ l ∈ (split source).lines, IsIndent l.indent.toList :=
  isIndent_of_mem_gather (by simp) _

theorem isBlank_of_isIndent {c : Char} (h : isIndent c = true) : Text.isBlank c = true := by
  simp only [isIndent, Bool.or_eq_true, beq_iff_eq] at h
  obtain rfl | rfl := h <;> rfl

theorem not_isBlank_of_isNameStart {c : Char} (h : Token.isNameStart c = true) :
    Text.isBlank c = false := by
  obtain ⟨low, high⟩ := Token.toNat_of_isNameStart h
  exact Text.not_isBlank_of_toNat (by omega) (by omega)

theorem not_isIndent_of_isNameStart {c : Char} (h : Token.isNameStart c = true) :
    isIndent c = false := by
  rw [Bool.eq_false_iff]
  intro inside
  have blank := isBlank_of_isIndent inside
  rw [not_isBlank_of_isNameStart h] at blank
  contradiction

/-- A line that has a name behind its indent is not passed over. -/
theorem isIgnored_eq_false {indent body : List Char} {c : Char} (h : IsIndent indent)
    (start : Token.isNameStart c = true) : isIgnored (indent ++ c :: body) = false := by
  have solid := not_isBlank_of_isNameStart start
  have stripped : Text.strip (indent ++ c :: body) = c :: Text.trimEnd body := by
    rw [Text.strip, Token.dropWhile_append_stop (fun d hd => isBlank_of_isIndent (h d hd))
      (by simpa using solid), Text.trimEnd_cons solid]
  have noComment : '/' ≠ c := by
    intro same
    subst same
    exact absurd start (by decide)
  simp [isIgnored, stripped, List.isPrefixOf, noComment]

end LogicalLine

end MarkupCascade
