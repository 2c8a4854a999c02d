import MarkupCascade.Proofs.Clause
import MarkupCascade.Validation

/-!
The pattern that the check of conditions holds a clause against. What fits it is read by the
evaluator, but for one case: the pattern lets a negated key be compared. In turn, what the evaluator
reads fits the pattern if the literal is without operators and ampersands.
-/

namespace MarkupCascade

open Text (IsBlank isBlank strip)

namespace Validation

open Clause

/-- A literal without operators and ampersands. -/
def Usual (literal : List Char) : Prop := ∀ c ∈ literal, c ≠ '=' ∧ c ≠ '!' ∧ c ≠ '&'

/-- What the pattern of the check has behind a key. -/
inductive Compared : List Char → Prop
  | none : Compared []
  | equals {literal : List Char} : Usual literal → Compared ('=' :: literal)
  | differs {literal : List Char} : Usual literal → Compared ('!' :: '=' :: literal)

theorem isComparison_iff {rest : List Char} : isComparison rest = true ↔ Compared rest := by
  have usual (literal : List Char) :
      (literal.all fun c => c != '=' && c != '!' && c != '&') = true ↔ Usual literal := by
    simp [Usual, and_assoc]
  constructor
  · intro given
    unfold isComparison at given
    split at given
    · exact .none
    · exact .differs ((usual _).1 given)
    · exact .equals ((usual _).1 given)
    · cases given
  · intro compared
    cases compared with
    | none => rfl
    | equals plain | differs plain => exact (usual _).2 plain

/-- The pattern of the check. -/
def Fits (piece : List Char) : Prop :=
  ∃ negated key rest, Headed negated key rest piece ∧ Compared rest

theorem exists_key {cs : List Char} (start : cs.head?.any isKeyStart = true) :
    ∃ key gap rest, isKey key = true ∧ IsBlank gap ∧ cs = key ++ (gap ++ rest)
      ∧ rest = (cs.dropWhile isKeyChar).dropWhile isBlank := by
  refine ⟨cs.takeWhile isKeyChar, (cs.dropWhile isKeyChar).takeWhile isBlank, _, ?_, ?_, ?_, rfl⟩
  · cases cs with
    | nil => simp at start
    | cons c cs =>
        have first : isKeyStart c = true := start
        have inside : isKeyChar c = true := by simp [isKeyChar, first]
        rw [List.takeWhile_cons_of_pos inside]
        exact Bool.and_eq_true_iff.2
          ⟨first, List.all_eq_true.2 fun _ hd => List.mem_takeWhile_imp hd⟩
  · exact fun _ hc => List.mem_takeWhile_imp hc
  · rw [List.takeWhile_append_dropWhile, List.takeWhile_append_dropWhile]

theorem fits_of_isClause {piece : List Char} (h : isClause piece = true) : Fits piece := by
  have before : IsBlank (piece.takeWhile isBlank) := fun _ hc => List.mem_takeWhile_imp hc
  have whole := List.takeWhile_append_dropWhile (p := isBlank) (l := piece)
  simp only [isClause] at h
  split at h
  · rename_i after found
    obtain ⟨start, comparison⟩ := Bool.and_eq_true_iff.1 h
    obtain ⟨key, gap, rest, hkey, hgap, same, behind⟩ := exists_key start
    have inner : IsBlank (after.takeWhile isBlank) := fun _ hc => List.mem_takeWhile_imp hc
    have headed := @Headed.negated _ _ key gap rest before inner hkey hgap
    rw [← same, List.takeWhile_append_dropWhile, ← found, whole] at headed
    exact ⟨true, key, rest, headed, isComparison_iff.1 (behind ▸ comparison)⟩
  · obtain ⟨start, comparison⟩ := Bool.and_eq_true_iff.1 h
    obtain ⟨key, gap, rest, hkey, hgap, same, behind⟩ := exists_key start
    have headed := @Headed.plain _ key gap rest before hkey hgap
    rw [← same, whole] at headed
    exact ⟨false, key, rest, headed, isComparison_iff.1 (behind ▸ comparison)⟩

/-- What fits the pattern is read as a clause, unless it compares a negated key. -/
theorem exists_parse_iff {piece : List Char} (h : isClause piece = true) :
    (∃ c, Clause.parse piece = .ok c) ↔ ¬NegatedComparison piece := by
  constructor
  · intro read negated
    rw [exists_parse_eq_ok_iff, negated.isKey_eq_false] at read
    contradiction
  · intro single
    obtain ⟨negated, key, rest, headed, compared⟩ := fits_of_isClause h
    simp only [parse_eq_ok_iff]
    cases compared with
    | none =>
        cases negated with
        | false => exact ⟨_, .truthy headed⟩
        | true => exact ⟨_, .falsy headed⟩
    | @equals literal usual =>
        cases negated with
        | false =>
            refine ⟨_, .equals headed (Text.padded_iff.2 rfl) ?_⟩
            intro inside
            have mark := Text.mem_of_mem_strip (inside.subset List.mem_cons_self)
            exact (usual _ mark).2.1 rfl
        | true => exact absurd (negatedComparison_of_headed headed (by simp)) single
    | differs usual =>
        cases negated with
        | false => exact ⟨_, .differs headed (Text.padded_iff.2 rfl)⟩
        | true => exact absurd (negatedComparison_of_headed headed (by simp)) single

theorem Compared.head {rest : List Char} (h : Compared rest) :
    ∀ c ∈ rest.head?, isKeyChar c = false ∧ isBlank c = false := by
  cases h with
  | none => simp
  | equals _ | differs _ =>
      intro c hc
      cases hc
      exact ⟨rfl, rfl⟩

/-- A key is found where it begins, and what is behind it where the white space ends. -/
theorem isComparison_behind {key gap rest : List Char} (hkey : isKey key = true)
    (hgap : IsBlank gap) (compared : Compared rest) :
    ((key ++ (gap ++ rest)).head?.any isKeyStart
      && isComparison (((key ++ (gap ++ rest)).dropWhile isKeyChar).dropWhile isBlank)) = true := by
  have stops : ∀ c ∈ (gap ++ rest).head?, isKeyChar c = false := by
    cases gap with
    | nil => exact fun c hc => (compared.head c hc).1
    | cons d gap =>
        intro c hc
        cases hc
        have blank := hgap d List.mem_cons_self
        by_contra inside
        rw [not_isBlank_of_isKeyChar (by simpa using inside)] at blank
        contradiction
  rw [Token.dropWhile_append_stop (isKeyChar_of_isKey hkey) stops,
    Token.dropWhile_append_stop hgap fun c hc => (compared.head c hc).2,
    isComparison_iff.2 compared, Bool.and_true]
  cases key with
  | nil => cases hkey
  | cons c key => exact (Bool.and_eq_true_iff.1 hkey).1

theorem isClause_of_fits {piece : List Char} (h : Fits piece) : isClause piece = true := by
  obtain ⟨negated, key, rest, headed, compared⟩ := h
  cases headed with
  | @plain before key gap _ hbefore hkey hgap =>
      have found := isComparison_behind hkey hgap compared
      cases key with
      | nil => cases hkey
      | cons c key =>
          -- A key begins with a letter, so the pattern does not take it for a negated one.
          have start : isKeyStart c = true := (Bool.and_eq_true_iff.1 hkey).1
          have solid := (solid_of_isKey hkey).blank c List.mem_cons_self
          have other : c ≠ '!' := by
            rintro rfl
            cases start
          have dropped : (before ++ (c :: key ++ (gap ++ rest))).dropWhile isBlank
              = c :: key ++ (gap ++ rest) :=
            Token.dropWhile_append_stop hbefore (by simpa using solid)
          simp only [isClause, dropped]
          split
          · rename_i same
            exact absurd (List.cons.inj same).1 other
          · exact found
  | @negated before inner key gap _ hbefore hinner hkey hgap =>
      have found := isComparison_behind hkey hgap compared
      have outer : (before ++ '!' :: (inner ++ (key ++ (gap ++ rest)))).dropWhile isBlank
          = '!' :: (inner ++ (key ++ (gap ++ rest))) :=
        Token.dropWhile_append_stop hbefore (by simp; rfl)
      have dropped :
          (inner ++ (key ++ (gap ++ rest))).dropWhile isBlank = key ++ (gap ++ rest) := by
        apply Token.dropWhile_append_stop hinner
        cases key with
        | nil => cases hkey
        | cons c key => simpa using (solid_of_isKey hkey).blank c List.mem_cons_self
      simp only [isClause, outer, dropped]
      exact found

theorem isClause_iff {piece : List Char} : isClause piece = true ↔ Fits piece :=
  ⟨fits_of_isClause, isClause_of_fits⟩

theorem Usual.of_padded {literal text : List Char} (h : Usual literal)
    (padded : Text.Padded literal text) : Usual text := by
  obtain ⟨_, before, after, hbefore, hafter, rfl⟩ := padded
  have blank {c : Char} (hc : isBlank c = true) : c ≠ '=' ∧ c ≠ '!' ∧ c ≠ '&' := by
    refine ⟨?_, ?_, ?_⟩ <;> (rintro rfl; cases hc)
  intro c hc
  simp only [List.mem_append] at hc
  cases hc with
  | inl inside => exact blank (hbefore c inside)
  | inr later =>
      cases later with
      | inl inside => exact h c inside
      | inr inside => exact blank (hafter c inside)

/-- What is read as a clause fits the pattern, unless its literal is unusual. -/
theorem fits_of_parse {c : Clause} {piece : List Char} (read : Clause.parse piece = .ok c)
    (usual : Usual c.literal) : Fits piece := by
  cases parse_eq_ok_iff.1 read with
  | truthy headed | falsy headed => exact ⟨_, _, _, headed, .none⟩
  | equals headed padded single => exact ⟨_, _, _, headed, .equals (usual.of_padded padded)⟩
  | differs headed padded => exact ⟨_, _, _, headed, .differs (usual.of_padded padded)⟩

end Validation

end MarkupCascade
