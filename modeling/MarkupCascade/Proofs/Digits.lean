import MarkupCascade.Fragment
import MarkupCascade.Proofs.Lookahead
import MarkupCascade.Proofs.Rounding

/-!
Decimals and the digits they are written with. The significant digits of a decimal and the place of
its point say what it is worth and between which powers of ten it lies. Laid out positionally they
are a whole number and a fraction that are worth the same; otherwise an exponent follows a number.
-/

namespace MarkupCascade

open Token (IsNumeral)

/-- What digits are worth if the point stands some places to the right of the first. -/
def Decimal.worth (digits : List Char) (point : Int) : ℚ :=
  Nat.ofDigitChars 10 digits 0 * (10 : ℚ) ^ (point - digits.length)

theorem Decimal.toRat_ofDigits (whole fraction : List Char) :
    (Decimal.ofDigits whole fraction).toRat = worth (whole ++ fraction) whole.length := by
  rw [toRat_eq, ofDigits, worth, List.length_append]
  congr 2
  push_cast
  ring

/-- Zeros in front of the digits and the point move no digit against the other. -/
theorem Decimal.worth_zeros_append (k : Nat) (digits : List Char) (point : Int) :
    worth (List.replicate k '0' ++ digits) (k + point) = worth digits point := by
  rw [worth, worth, Nat.ofDigitChars_append, Nat.ofDigitChars_replicate_zero, Nat.mul_zero,
    List.length_append, List.length_replicate]
  congr 2
  push_cast
  ring

theorem Decimal.worth_append_zeros (digits : List Char) (k : Nat) (point : Int) :
    worth (digits ++ List.replicate k '0') point = worth digits point := by
  rw [worth, worth, Nat.ofDigitChars_append, Nat.ofDigitChars_replicate_zero,
    List.length_append, List.length_replicate]
  have shift : (10 : ℚ) ^ (point - digits.length)
      = 10 ^ k * 10 ^ (point - (digits.length + k)) := by
    rw [← zpow_natCast, ← zpow_add₀ (by norm_num)]
    congr 1
    ring
  rw [shift]
  push_cast
  ring

/-! The significant digits of a decimal. -/

theorem exists_eq_append_zeros (digits : List Char) :
    ∃ k, digits = (digits.reverse.dropWhile (· == '0')).reverse ++ List.replicate k '0' := by
  have zeros : digits.reverse.takeWhile (· == '0')
      = List.replicate (digits.reverse.takeWhile (· == '0')).length '0' :=
    List.eq_replicate_of_mem fun c hc => by simpa using List.mem_takeWhile_imp hc
  have whole := congrArg List.reverse
    (List.takeWhile_append_dropWhile (p := (· == '0')) (l := digits.reverse))
  rw [List.reverse_append, List.reverse_reverse, zeros, List.reverse_replicate] at whole
  exact ⟨_, whole.symm⟩

/-- A number has as many digits as the power of ten that it does not reach. -/
theorem bounds_length_toDigits {n : Nat} (positive : n ≠ 0) :
    10 ^ ((Nat.toDigits 10 n).length - 1) ≤ n ∧ n < 10 ^ (Nat.toDigits 10 n).length := by
  have some : 0 < (Nat.toDigits 10 n).length := Nat.length_toDigits_pos
  refine ⟨?_, (Nat.length_toDigits_le_iff (by decide) some).1 le_rfl⟩
  obtain one | more := Nat.eq_zero_or_pos ((Nat.toDigits 10 n).length - 1)
  · rw [one]
    exact Nat.one_le_iff_ne_zero.2 positive
  · have := (Nat.length_toDigits_le_iff (n := n) (b := 10) (by decide) more).not
    omega

/-- Digits and a point that are those of a decimal. -/
structure Decimal.IsWritten (d : Decimal) (digits : List Char) (point : Int) : Prop where
  numeral : IsNumeral digits
  worth : Decimal.worth digits point = d.toRat
  atLeast : (10 : ℚ) ^ (point - 1) ≤ d.toRat
  below : d.toRat < (10 : ℚ) ^ point

theorem Decimal.isWritten_significant {d : Decimal} (positive : d.coefficient ≠ 0) :
    d.IsWritten d.significant.1 d.significant.2 := by
  obtain ⟨c, e⟩ := d
  obtain ⟨k, split⟩ := exists_eq_append_zeros (Nat.toDigits 10 c)
  obtain ⟨low, high⟩ := bounds_length_toDigits positive
  have value : Nat.ofDigitChars 10 (Nat.toDigits 10 c) 0 = c := Nat.ofDigitChars_ten_toDigits
  have some : 0 < (Nat.toDigits 10 c).length := Nat.length_toDigits_pos
  have all := (Token.isNumeral_toDigits c).2
  simp only [significant]
  generalize (Nat.toDigits 10 c).reverse.dropWhile (· == '0') = others at split ⊢
  generalize Nat.toDigits 10 c = digits at *
  have tens : (0 : ℚ) < 10 ^ e := by positivity
  refine ⟨⟨?_, ?_⟩, ?_, ?_, ?_⟩
  · intro none
    rw [split, none, List.nil_append, Nat.ofDigitChars_replicate_zero, Nat.mul_zero] at value
    exact positive value.symm
  · intro c' hc
    exact all c' (split ▸ List.mem_append_left _ hc)
  · rw [← worth_append_zeros _ k, ← split, worth, value, toRat_eq, add_sub_cancel_left]
  · rw [toRat_eq, show (digits.length + e - 1 : Int) = (digits.length - 1 : Nat) + e by omega,
      zpow_add₀ (by norm_num), zpow_natCast]
    gcongr
    exact_mod_cast low
  · rw [toRat_eq, zpow_add₀ (by norm_num), zpow_natCast]
    gcongr
    exact_mod_cast high

/-! Digits laid out around the point. -/

namespace Binary64

theorem isNumeral_zeros {k : Nat} (h : k ≠ 0) : IsNumeral (List.replicate k '0') :=
  ⟨by simpa using h, fun c hc => by rw [List.eq_of_mem_replicate hc]; rfl⟩

/-- In front of the digits there are as many zeros as it takes. -/
theorem layOut_before {digits : List Char} (h : IsNumeral digits) (k : Nat) :
    IsNumeral (List.replicate k '0' ++ digits)
      ∧ (Decimal.ofDigits ['0'] (List.replicate k '0' ++ digits)).toRat
        = Decimal.worth digits (-k) := by
  refine ⟨⟨by simp [h.1], List.forall_mem_append.2 ⟨fun c hc => ?_, h.2⟩⟩, ?_⟩
  · rw [List.eq_of_mem_replicate hc]
    rfl
  · have shifted := Decimal.worth_zeros_append (k + 1) digits (-k)
    rw [Decimal.toRat_ofDigits, ← List.append_assoc, List.singleton_append, ← List.replicate_succ,
      ← shifted]
    congr 1
    rw [List.length_singleton]
    omega

/-- Digits that end in front of the point are followed by zeros, and by one behind it. -/
theorem layOut_behind {digits : List Char} (h : IsNumeral digits) {p : Nat} (some : 0 < p) :
    let whole := digits.take p ++ List.replicate (p - digits.length) '0'
    let fraction := if (digits.drop p).isEmpty then ['0'] else digits.drop p
    IsNumeral whole ∧ IsNumeral fraction
      ∧ (Decimal.ofDigits whole fraction).toRat = Decimal.worth digits p := by
  intro whole fraction
  have length : whole.length = p := by
    simp only [whole, List.length_append, List.length_take, List.length_replicate]
    omega
  have isDigit : ∀ c ∈ whole, c.isDigit = true := by
    refine List.forall_mem_append.2 ⟨fun c hc => h.2 c (List.mem_of_mem_take hc), fun c hc => ?_⟩
    rw [List.eq_of_mem_replicate hc]
    rfl
  have isWhole : IsNumeral whole := ⟨List.ne_nil_of_length_pos (by omega), isDigit⟩
  rw [Decimal.toRat_ofDigits, length]
  by_cases ended : digits.length ≤ p
  · have single : fraction = ['0'] := by simp [fraction, ended]
    have zeros : whole ++ ['0'] = digits ++ List.replicate (p - digits.length + 1) '0' := by
      simp only [whole]
      rw [List.take_of_length_le ended, List.append_assoc, List.replicate_succ']
    rw [single, zeros, Decimal.worth_append_zeros]
    exact ⟨isWhole, isNumeral_zeros (k := 1) one_ne_zero, rfl⟩
  · have rest : fraction = digits.drop p := by simp [fraction, ended]
    have noZeros : whole = digits.take p := by
      simp only [whole]
      rw [Nat.sub_eq_zero_of_le (by omega), List.replicate_zero, List.append_nil]
    rw [rest, noZeros, List.take_append_drop]
    exact ⟨noZeros ▸ isWhole, ⟨List.ne_nil_of_length_pos (by simp; omega),
      fun c hc => h.2 c (List.mem_of_mem_drop hc)⟩, rfl⟩

/-- Near the point no exponent is needed. -/
theorem exists_layOut_eq {digits : List Char} {point : Int} (h : IsNumeral digits)
    (near : -4 < point ∧ point ≤ 16) :
    ∃ whole fraction, layOut digits point = whole ++ '.' :: fraction
      ∧ IsNumeral whole ∧ IsNumeral fraction
      ∧ (Decimal.ofDigits whole fraction).toRat = Decimal.worth digits point := by
  have positional : (decide (-4 < point) && decide (point ≤ 16)) = true := by simp [near]
  rw [layOut.eq_def, if_pos positional]
  split
  · rename_i before
    obtain ⟨k, rfl⟩ := Int.exists_eq_neg_ofNat before
    obtain ⟨isFraction, value⟩ := layOut_before h k
    exact ⟨['0'], _, by simp, isNumeral_zeros (k := 1) one_ne_zero, isFraction, value⟩
  · rename_i behind
    obtain ⟨p, rfl⟩ := Int.eq_ofNat_of_zero_le (Int.le_of_lt (Int.not_le.1 behind))
    obtain ⟨isWhole, isFraction, value⟩ := layOut_behind h (p := p) (by omega)
    exact ⟨_, _, rfl, isWhole, isFraction, value⟩

/-- Far from the point a number is followed by an exponent. -/
theorem exists_layOut_exponent {digits : List Char} {point : Int} (h : IsNumeral digits)
    (far : ¬(-4 < point ∧ point ≤ 16)) (negative : Bool) :
    ∃ t v more, Token.sign negative ++ layOut digits point = t.spell ++ 'e' :: more
      ∧ t.WellFormed ∧ Fragment.valueOf? t = some v ∧ t.Stops ('e' :: more) := by
  have scientific : ¬(decide (-4 < point) && decide (point ≤ 16)) = true := by simpa using far
  rw [layOut.eq_def, if_neg scientific]
  obtain ⟨nonempty, all⟩ := h
  match digits with
  | [] => exact absurd rfl nonempty
  | [d] =>
      refine ⟨.integer negative [d], _, exponentText (point - 1), by simp [Token.spell],
        ⟨by simp, all⟩, rfl, by simp, ?_⟩
      rintro c more ⟨⟩
  | d :: e :: rest =>
      obtain ⟨first, others⟩ := List.forall_mem_cons.1 all
      refine ⟨.float negative [d] (e :: rest), _, exponentText (point - 1), by simp [Token.spell],
        ⟨⟨by simp, by simpa using first⟩, by simp, others⟩, rfl, ?_⟩
      rintro c ⟨⟩
      rfl

end Binary64

end MarkupCascade
