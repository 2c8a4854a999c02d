import MarkupCascade.Proofs.Digits
import MarkupCascade.Proofs.Printed
import MarkupCascade.Proofs.ViablePrefix

/-!
Floats read back from their text. The decimal that is printed rounds to the number, so whether it is
written with an exponent depends on the magnitude of the number and not on how it was rounded: at
the two limits of positional notation the decimals on either side are told apart by the rounding.
The grammar has no token for an exponent and none for infinity. So a float that was read is read
back as the same float, if it is zero or within those limits, and else its text is refused.
-/

namespace MarkupCascade

open Token (IsNumeral)

namespace Binary64

/-! The shortest decimal of a number. -/

theorem toRat_exact (m : Nat) (q : Int) : (exact m q).toRat = magnitude m q := by
  rw [magnitude_eq, Decimal.toRat_eq, exact]
  split
  · rename_i nonneg
    obtain ⟨k, rfl⟩ := Int.eq_ofNat_of_zero_le nonneg
    simp
  · rename_i neg
    obtain ⟨k, rfl⟩ := Int.eq_negSucc_of_lt_zero (not_le.1 neg)
    have ten : (10 : ℚ) ^ (k + 1) = 5 ^ (k + 1) * 2 ^ (k + 1) := by rw [← mul_pow]; norm_num
    simp only [Int.natAbs_negSucc, zpow_negSucc, ten, Nat.pow_eq]
    push_cast
    field_simp

/-- The decimal that is printed is rounded to the number. -/
theorem ofDecimal_shortest {m : Nat} {q : Int} (h : Canonical m q) (positive : m ≠ 0) :
    ofDecimal false (shortest m q) = .finite false m q := by
  unfold shortest
  lift_lets
  intro x n place candidates
  cases found : candidates.find? fun d => ofDecimal false d = .finite false m q with
  | none => rw [Option.getD_none, ofDecimal, toRat_exact, ofRat_magnitude h positive]
  | some d =>
      have readsBack := List.find?_some found
      rw [Option.getD_some]
      exact of_decide_eq_true readsBack

theorem toRat_nonneg (d : Decimal) : 0 ≤ d.toRat := by
  rw [Decimal.toRat_eq]
  positivity

theorem toRat_pos_iff {d : Decimal} : 0 < d.toRat ↔ d.coefficient ≠ 0 := by
  rw [Decimal.toRat_eq, mul_pos_iff_of_pos_right (by positivity), Nat.cast_pos, Nat.pos_iff_ne_zero]

theorem coefficient_shortest {m : Nat} {q : Int} (h : Canonical m q) (positive : m ≠ 0) :
    (shortest m q).coefficient ≠ 0 := by
  intro zero
  have readsBack := ofDecimal_shortest h positive
  have none : (shortest m q).toRat = 0 := by simp [Decimal.toRat_eq, zero]
  rw [ofDecimal, none, ofRat_zero] at readsBack
  cases readsBack
  exact positive rfl

theorem rounded_shortest {m : Nat} {q : Int} (h : Canonical m q) (positive : m ≠ 0) :
    rounded (shortest m q).toRat = magnitude m q := by
  obtain ⟨_, _, value⟩ := ofRat_eq_finite (toRat_pos_iff.2 (coefficient_shortest h positive))
    (ofDecimal_shortest h positive)
  exact value.symm

/-- Whether the number is below a power of ten shows in the point of its shortest decimal, if that
power is rounded up to a number which the power is the shortest decimal of. -/
theorem magnitude_lt_iff {k : Int} {n : Nat} {r : Int}
    (limit : ofDecimal false ⟨1, k⟩ = .finite false n r) (up : (10 : ℚ) ^ k ≤ magnitude n r)
    (leads : (shortest n r).significant.2 = k + 1) {m : Nat} {q : Int} (h : Canonical m q)
    (positive : m ≠ 0) :
    magnitude m q < (10 : ℚ) ^ k ↔ (shortest m q).significant.2 ≤ k := by
  have power : (⟨1, k⟩ : Decimal).toRat = (10 : ℚ) ^ k := by simp [Decimal.toRat_eq]
  have tens : (0 : ℚ) < 10 ^ k := by positivity
  rw [ofDecimal, power] at limit
  obtain ⟨_, canonical, ofLimit⟩ := ofRat_eq_finite tens limit
  have some := coefficient_shortest h positive
  obtain ⟨_, _, atLeast, below⟩ := Decimal.isWritten_significant some
  constructor
  · intro less
    by_contra far
    have reached : (10 : ℚ) ^ k ≤ (shortest m q).toRat :=
      (zpow_le_zpow_right₀ (by norm_num) (by omega)).trans atLeast
    have mono := rounded_mono tens reached
    rw [← ofLimit, rounded_shortest h positive] at mono
    exact absurd (up.trans mono) (not_le.2 less)
  · intro near
    by_contra reached
    rw [not_lt] at reached
    -- The number would lie between the power and what the power is rounded to, so be the latter.
    have less : (shortest m q).toRat ≤ (10 : ℚ) ^ k :=
      below.le.trans (zpow_le_zpow_right₀ (by norm_num) near)
    have atMost := rounded_mono (toRat_pos_iff.2 some) less
    have atLimit := rounded_mono tens reached
    rw [rounded_shortest h positive, ← ofLimit] at atMost
    rw [← ofLimit, rounded_magnitude h positive] at atLimit
    have some' : n ≠ 0 := by
      rintro rfl
      rw [magnitude_eq, Nat.cast_zero, zero_mul] at up
      exact absurd tens (not_lt.2 up)
    obtain ⟨rfl, rfl⟩ := h.eq_of_magnitude_eq canonical positive some' (atMost.antisymm atLimit)
    omega

/-- Whether a number is zero or of a magnitude that is written without an exponent. -/
def IsPositional : Binary64 → Prop
  | .finite _ m q => m = 0 ∨ 1 / 10 ^ 4 ≤ magnitude m q ∧ magnitude m q < 10 ^ 16
  | _ => False

theorem IsPositional.same_self {x : Binary64} (h : x.IsPositional) : x.same x = true := by
  cases x with
  | finite negative m q => simp [same]
  | infinite _ | nan => exact h.elim

theorem isPositional_iff {m : Nat} {q : Int} (h : Canonical m q) (positive : m ≠ 0)
    (negative : Bool) : (finite negative m q).IsPositional
      ↔ -4 < (shortest m q).significant.2 ∧ (shortest m q).significant.2 ≤ 16 := by
  have upper := magnitude_lt_iff (k := 16) (n := 5000000000000000) (r := 1) (by decide +kernel)
    (by rw [magnitude_eq]; norm_num) (by decide +kernel) h positive
  have lower := magnitude_lt_iff (k := -4) (n := 7378697629483821) (r := -66) (by decide +kernel)
    (by rw [magnitude_eq]; norm_num) (by decide +kernel) h positive
  have ten : (10 : ℚ) ^ (-4 : Int) = 1 / 10 ^ 4 := by norm_num
  rw [ten] at lower
  rw [IsPositional, ← not_lt, lower, Int.not_le, or_iff_right positive]
  exact and_congr_right' upper

theorem spell_finite {m : Nat} (positive : m ≠ 0) (q : Int) (negative : Bool) :
    (finite negative m q).spell = Token.sign negative
      ++ layOut (shortest m q).significant.1 (shortest m q).significant.2 := by
  cases written : (shortest m q).significant with
  | mk digits point =>
      rw [spell, if_neg positive, written]
      rfl

end Binary64

namespace Value

/-- A sign, digits, a point and digits are read as the decimal that they are. -/
theorem parse_decimal {whole fraction : List Char} (negative : Bool) (isWhole : IsNumeral whole)
    (isFraction : IsNumeral fraction) (line indent : Int) :
    Value.parse (String.ofList (Token.sign negative ++ (whole ++ '.' :: fraction))) line indent
      = .ok (.float (.ofDecimal negative (.ofDigits whole fraction))) := by
  have printed := Fragment.Printed.single (t := .float negative whole fraction)
    ⟨isWhole, isFraction⟩ trivial trivial {}
  refine parse_eq_ok_iff.2 ⟨⟨_, ?_, .float, printed.convertible⟩, .float⟩
  rw [String.toList_ofList, ← List.append_assoc]
  exact printed.spread

theorem grammatical_of_parse {text : String} {line indent : Int} {v : Value}
    (h : Value.parse text line indent = .ok v) : Value.Grammatical text.toList := by
  obtain ⟨⟨ls, spread, tokens, _⟩, _⟩ := parse_eq_ok_iff.1 h
  exact ⟨v, ls, spread, tokens⟩

/-- No word may follow a value. -/
theorem not_accepts_word (v : Value) (here : Position) (more : List Char) :
    ¬Fragment.Accepts (.finished (f := .value) v) here ('e' :: more) := by
  have split : Token.splitGap false ('e' :: more) = ([], 'e' :: more) :=
    Token.splitGap_of_stops rfl (by simp)
  have word := Token.scan?_of_isNameStart false more (c := 'e') rfl
  have refused : Fragment.read (.finished (f := .value) v) ('e' :: more) here here
      = ⟨[], .error _⟩ := Fragment.read_refused here split word rfl
  exact Fragment.not_accepts_of_error (congrArg Fragment.Reading.outcome refused)

theorem not_grammatical_exponent {t : Token} {v : Value} {more : List Char} (form : t.WellFormed)
    (value : Fragment.valueOf? t = some v) (stops : t.Stops ('e' :: more)) :
    ¬Value.Grammatical (t.spell ++ 'e' :: more) := by
  have belongs : t.Belongs true := by cases t <;> cases value <;> trivial
  have step : Fragment.Stage.next? (.value .whole []) t 1 = some (.finished v) := by
    cases t <;> cases value <;> rfl
  have passed : Fragment.Accepts (.value .whole []) {} ([] ++ (t.spell ++ 'e' :: more)) ↔ _ :=
    Fragment.accepts_step_iff .nil form (Token.scan?_of_fits form ⟨belongs, stops⟩) step
  rw [List.nil_append] at passed
  rw [Value.grammatical_eq_accepts, passed]
  exact not_accepts_word v _ more

theorem not_grammatical_infinite (negative : Bool) :
    ¬Value.Grammatical (Binary64.infinite negative).spell := by
  rw [Value.grammatical_eq_accepts]
  cases negative with
  | true =>
      have refused : (Fragment.read (.value .whole []) ['-', 'i', 'n', 'f'] {} {}).outcome
          = .error (.unexpectedCharacter '-' {}) := by cbv
      exact Fragment.not_accepts_of_error refused
  | false =>
      have refused : (Fragment.read (.value .whole []) ['i', 'n', 'f'] {} {}).outcome
          = .error (.unexpectedToken ⟨.name ['i', 'n', 'f'], {}⟩) := by cbv
      exact Fragment.not_accepts_of_error refused

theorem isRounded_of_parse {text : String} {line indent : Int} {x : Binary64}
    (h : Value.parse text line indent = .ok (.float x)) : x.IsRounded := by
  obtain ⟨⟨ls, _, tokens, _⟩, _⟩ := parse_eq_ok_iff.1 h
  cases tokens
  exact Binary64.isRounded_ofRat (Binary64.toRat_nonneg _) _

theorem parse_text_positional {x : Binary64} (h : x.IsRounded) (positional : x.IsPositional)
    (line indent : Int) : Value.parse (Value.float x).text line indent = .ok (.float x) := by
  cases x with
  | infinite _ | nan => exact positional.elim
  | finite negative m q =>
      rw [text, spell]
      by_cases none : m = 0
      · subst none
        obtain rfl : q = Binary64.minExponent := h.full.resolve_right (by norm_num)
        have zero : IsNumeral ['0'] := Token.isNumeral_toDigits 0
        have read := parse_decimal negative zero zero line indent
        have value : Binary64.ofDecimal negative (.ofDigits ['0'] ['0']) = .zero negative := by
          cases negative <;> decide +kernel
        rw [value] at read
        exact read
      · obtain ⟨numeral, worth, _, _⟩ :=
          Decimal.isWritten_significant (Binary64.coefficient_shortest h none)
        have near := (Binary64.isPositional_iff h none negative).1 positional
        obtain ⟨whole, fraction, laidOut, isWhole, isFraction, value⟩ :=
          Binary64.exists_layOut_eq numeral near
        have positive := Binary64.toRat_pos_iff.2 (Binary64.coefficient_shortest h none)
        rw [Binary64.spell_finite none, laidOut, parse_decimal negative isWhole isFraction,
          Binary64.ofDecimal, value, worth,
          Binary64.ofRat_sign positive (Binary64.ofDecimal_shortest h none)]

theorem not_grammatical_of_not_positional {x : Binary64} (h : x.IsRounded)
    (far : ¬x.IsPositional) : ¬Value.Grammatical x.spell := by
  cases x with
  | infinite negative => exact not_grammatical_infinite negative
  | nan => exact h.elim
  | finite negative m q =>
      have positive : m ≠ 0 := fun none => far (.inl none)
      rw [Binary64.isPositional_iff h positive] at far
      obtain ⟨numeral, _⟩ :=
        Decimal.isWritten_significant (Binary64.coefficient_shortest h positive)
      obtain ⟨t, v, more, laidOut, form, value, stops⟩ :=
        Binary64.exists_layOut_exponent numeral far negative
      rw [Binary64.spell_finite positive, laidOut]
      exact not_grammatical_exponent form value stops

/-- A float literal is read back from the text of what it was read as, and as the same float, if
that is zero or of a magnitude from `0.0001` up to below `10 ^ 16`. Otherwise the text is no
literal. -/
theorem parse_text_float {source : String} {line indent : Int} {x : Binary64}
    (read : Value.parse source line indent = .ok (.float x)) (line' indent' : Int) :
    (x.IsPositional → Value.parse (Value.float x).text line' indent' = .ok (.float x)
        ∧ (Value.float x == .float x) = true)
      ∧ (¬x.IsPositional → ∀ v, Value.parse (Value.float x).text line' indent' ≠ .ok v) := by
  have rounded := isRounded_of_parse read
  refine ⟨fun positional => ⟨parse_text_positional rounded positional line' indent', ?_⟩, ?_⟩
  · exact positional.same_self
  · intro far v again
    have grammatical := grammatical_of_parse again
    rw [text, String.toList_ofList, spell] at grammatical
    exact not_grammatical_of_not_positional rounded far grammatical

/-- A tenth with more digits than are needed is read back from `0.1`, and `10 ^ 16` from nothing. -/
theorem parse_text_float_tenth :
    let tenth : Binary64 := .finite false 7205759403792794 (-56)
    let large : Binary64 := .finite true 5000000000000000 1
    (Value.parse "0.10000000000000000555" 1 0 = .ok (.float tenth)
        ∧ Value.parse "0.1" 1 0 = .ok (.float tenth))
      ∧ Value.parse "-10000000000000000.0" 1 0 = .ok (.float large)
        ∧ ∀ v, Value.parse "-1e+16" 1 0 ≠ .ok v := by
  intro tenth large
  have numeral (cs : List Char) (nonempty : cs ≠ []) (all : cs.all Char.isDigit = true) :
      IsNumeral cs := ⟨nonempty, List.all_eq_true.1 all⟩
  have readTenth : Value.parse "0.10000000000000000555" 1 0 = .ok (.float tenth) := by
    have read := parse_decimal false (numeral ['0'] (by simp) rfl)
      (numeral "10000000000000000555".toList (by simp) rfl) 1 0
    have value : Binary64.ofDecimal false (.ofDigits ['0'] "10000000000000000555".toList)
        = tenth := by decide +kernel
    have spelled : String.ofList (Token.sign false
        ++ (['0'] ++ '.' :: "10000000000000000555".toList)) = "0.10000000000000000555" := by
      decide
    rw [value, spelled] at read
    exact read
  have readLarge : Value.parse "-10000000000000000.0" 1 0 = .ok (.float large) := by
    have read := parse_decimal true (numeral "10000000000000000".toList (by simp) rfl)
      (numeral ['0'] (by simp) rfl) 1 0
    have value : Binary64.ofDecimal true (.ofDigits "10000000000000000".toList ['0'])
        = large := by decide +kernel
    have spelled : String.ofList (Token.sign true
        ++ ("10000000000000000".toList ++ '.' :: ['0'])) = "-10000000000000000.0" := by decide
    rw [value, spelled] at read
    exact read
  have writtenTenth : (Value.float tenth).text = "0.1" := by decide +kernel
  have writtenLarge : (Value.float large).text = "-1e+16" := by decide +kernel
  have near : tenth.IsPositional := by
    refine .inr ⟨?_, ?_⟩ <;> rw [Binary64.magnitude_eq] <;> norm_num
  have far : ¬large.IsPositional := by
    rintro (none | ⟨_, below⟩)
    · cases none
    · rw [Binary64.magnitude_eq] at below
      norm_num at below
  have again := ((parse_text_float readTenth 1 0).1 near).1
  have never := (parse_text_float readLarge 1 0).2 far
  rw [writtenTenth] at again
  rw [writtenLarge] at never
  exact ⟨⟨readTenth, again⟩, readLarge, never⟩

/-- The text of `10 ^ 16` has an exponent, and that is no literal. -/
theorem parse_text_float_exponent :
    ∃ x, Value.parse "10000000000000000.0" 1 0 = .ok (.float x)
      ∧ (Value.float x).text = "1e+16"
      ∧ Value.parse "1e+16" 1 0 = .error (.parse ⟨.unexpectedToken "e", some 1, some 2⟩) := by
  have numeral : IsNumeral "10000000000000000".toList := ⟨by simp, List.all_eq_true.1 rfl⟩
  refine ⟨_, parse_decimal false numeral (Token.isNumeral_toDigits 0) 1 0, ?_, by cbv⟩
  decide +kernel

end Value

end MarkupCascade
