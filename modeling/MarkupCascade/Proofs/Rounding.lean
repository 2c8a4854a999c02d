import MarkupCascade.Binary64
import Mathlib.Algebra.Order.Field.Power
import Mathlib.Algebra.Order.Floor.Semifield
import Mathlib.Data.Rat.Floor
import Mathlib.Tactic.FieldSimp
import Mathlib.Tactic.Linarith
import Mathlib.Tactic.Positivity
import Mathlib.Tactic.Ring

/-!
Rounding of rationals to 64 bits. The numbers of the format between two powers of two lie on a grid,
and the exponent that is chosen for a rational is that of its grid. On one grid rounding is monotone
since it is for integers, and from one grid to the next the power of two between them is not passed.
A number that is of the format is left as it is.
-/

namespace MarkupCascade

theorem Decimal.toRat_eq (d : Decimal) : d.toRat = d.coefficient * (10 : ℚ) ^ d.exponent := by
  obtain ⟨c, e⟩ := d
  simp only [toRat, Rat.mkRat_eq_div]
  split
  · rename_i nonneg
    obtain ⟨k, rfl⟩ := Int.eq_ofNat_of_zero_le nonneg
    simp
  · rename_i neg
    obtain ⟨k, rfl⟩ := Int.eq_negSucc_of_lt_zero (not_le.1 neg)
    simp [zpow_negSucc, div_eq_mul_inv]

namespace Binary64

theorem magnitude_eq (m : Nat) (q : Int) : magnitude m q = m * (2 : ℚ) ^ q := by
  simp only [magnitude, Rat.mkRat_eq_div]
  split
  · rename_i nonneg
    obtain ⟨k, rfl⟩ := Int.eq_ofNat_of_zero_le nonneg
    simp
  · rename_i neg
    obtain ⟨k, rfl⟩ := Int.eq_negSucc_of_lt_zero (not_le.1 neg)
    simp [zpow_negSucc, div_eq_mul_inv]

theorem magnitude_pos {m : Nat} (positive : m ≠ 0) (q : Int) : 0 < magnitude m q := by
  rw [magnitude_eq]
  have some : (0 : ℚ) < m := Nat.cast_pos.2 (Nat.pos_of_ne_zero positive)
  positivity

theorem natAbs_num_div_den {x : ℚ} (h : 0 ≤ x) : (x.num.natAbs : ℚ) / x.den = x := by
  have sign : ((x.num.natAbs : ℤ) : ℚ) = x.num := by
    rw [Int.natAbs_of_nonneg (Rat.num_nonneg.2 h)]
  rw [← Int.cast_natCast, sign, Rat.num_div_den]

theorem scale_spec (n : Nat) {d : Nat} (positive : 0 < d) (q : Int) :
    0 < (scale n d q).2
      ∧ ((scale n d q).1 : ℚ) / (scale n d q).2 = n / d / (2 : ℚ) ^ q := by
  simp only [scale]
  split
  · rename_i nonneg
    obtain ⟨k, rfl⟩ := Int.eq_ofNat_of_zero_le nonneg
    refine ⟨Nat.mul_pos positive (Nat.two_pow_pos _), ?_⟩
    simp [div_div]
  · rename_i neg
    obtain ⟨k, rfl⟩ := Int.eq_negSucc_of_lt_zero (not_le.1 neg)
    refine ⟨positive, ?_⟩
    simp [zpow_negSucc, mul_div_right_comm]

/-! Rounding to integers. -/

theorem div_le_roundHalfEven (a b : Nat) : a / b ≤ roundHalfEven a b := by
  simp only [roundHalfEven]
  split <;> omega

theorem roundHalfEven_le (a b : Nat) : roundHalfEven a b ≤ a / b + 1 := by
  simp only [roundHalfEven]
  split <;> omega

theorem roundHalfEven_mono {a b c d : Nat} (hb : 0 < b) (hd : 0 < d)
    (h : (a : ℚ) / b ≤ c / d) : roundHalfEven a b ≤ roundHalfEven c d := by
  have floors : a / b ≤ c / d := by
    have mono := Nat.floor_mono h
    rwa [Nat.floor_div_eq_div, Nat.floor_div_eq_div] at mono
  obtain less | same := floors.lt_or_eq
  · exact (roundHalfEven_le a b).trans (Nat.le_trans less (div_le_roundHalfEven c d))
  have ratios : a * d ≤ c * b := by
    rw [div_le_div_iff₀ (Nat.cast_pos.2 hb) (Nat.cast_pos.2 hd)] at h
    exact_mod_cast h
  have excess : a % b * d ≤ c % d * b := by
    rw [← Nat.div_add_mod a b, ← Nat.div_add_mod c d, same] at ratios
    linarith
  by_cases up : 2 * (c % d) < d ∨ 2 * (c % d) = d ∧ c / d % 2 = 0
  · -- The second is rounded down, so the first is: its excess is no larger.
    have down : 2 * (a % b) < b ∨ 2 * (a % b) = b ∧ a / b % 2 = 0 := by
      obtain below | ⟨half, even⟩ := up
      · refine .inl (Nat.lt_of_mul_lt_mul_right (a := d) ?_)
        calc 2 * (a % b) * d ≤ 2 * (c % d) * b := by linarith
          _ < d * b := Nat.mul_lt_mul_of_pos_right below hb
          _ = b * d := Nat.mul_comm d b
      · have atMost : 2 * (a % b) ≤ b := by
          refine Nat.le_of_mul_le_mul_right (c := d) ?_ hd
          calc 2 * (a % b) * d ≤ 2 * (c % d) * b := by linarith
            _ = b * d := by rw [half, Nat.mul_comm]
        exact atMost.lt_or_eq.imp_right fun exactly => ⟨exactly, same ▸ even⟩
    have floor : roundHalfEven a b = a / b := by simp [roundHalfEven, down]
    rw [floor, same]
    exact div_le_roundHalfEven c d
  · have ceiling : roundHalfEven c d = c / d + 1 := by simp [roundHalfEven, up]
    rw [ceiling, ← same]
    exact roundHalfEven_le a b

@[simp] theorem roundHalfEven_one (k : Nat) : roundHalfEven k 1 = k := by
  simp [roundHalfEven, Nat.mod_one]

theorem le_roundHalfEven {a b k : Nat} (hb : 0 < b) (h : (k : ℚ) ≤ a / b) :
    k ≤ roundHalfEven a b := by
  have mono := roundHalfEven_mono (a := k) Nat.one_pos hb (by simpa using h)
  rwa [roundHalfEven_one] at mono

theorem roundHalfEven_le_of_le {a b k : Nat} (hb : 0 < b) (h : (a : ℚ) / b ≤ k) :
    roundHalfEven a b ≤ k := by
  have mono := roundHalfEven_mono (c := k) hb Nat.one_pos (by simpa using h)
  rwa [roundHalfEven_one] at mono

/-! The exponent of a rational. -/

/-- The exponent with which a positive rational has 53 binary digits in front of the point, or
fewer if it is the least exponent. -/
structure IsExponent (x : ℚ) (e : Int) : Prop where
  least : minExponent ≤ e
  below : x < 2 ^ 53 * (2 : ℚ) ^ e
  above : e = minExponent ∨ 2 ^ 52 * (2 : ℚ) ^ e ≤ x

theorem IsExponent.le {x y : ℚ} {e e' : Int} (h : IsExponent x e) (h' : IsExponent y e')
    (le : x ≤ y) : e ≤ e' := by
  by_contra less
  rw [not_le] at less
  obtain least | above := h.above
  · have := h'.least
    omega
  have grid : (2 : ℚ) ^ (e' + 1) ≤ 2 ^ e := zpow_le_zpow_right₀ one_le_two (by omega)
  rw [zpow_add_one₀ two_ne_zero] at grid
  have := h'.below
  linarith

/-- The exponent of the grid that a rational is rounded on. -/
def gridExponent (x : ℚ) : Int := exponentFor x.num.natAbs x.den

theorem isExponent_gridExponent {x : ℚ} (h : 0 < x) : IsExponent x (gridExponent x) := by
  rw [gridExponent]
  have hd : 0 < x.den := x.den_pos
  have hn : x.num.natAbs ≠ 0 := by simpa using h.ne'
  have value := natAbs_num_div_den h.le
  generalize x.num.natAbs = n at *
  generalize x.den = d at *
  set q : Int := (n.log2 : Int) - d.log2 - 53 with hq
  obtain ⟨positive, scaled⟩ := scale_spec n hd q
  have grid : (0 : ℚ) < 2 ^ q := by positivity
  -- Numerator and denominator are known up to a factor of two.
  have unit : (2 : ℚ) ^ q * 2 ^ 53 * 2 ^ d.log2 = 2 ^ n.log2 := by
    simp only [← zpow_natCast]
    rw [← zpow_add₀ two_ne_zero, ← zpow_add₀ two_ne_zero, hq]
    congr 1
    push_cast
    ring
  have nLow : (2 : ℚ) ^ n.log2 ≤ n := by exact_mod_cast Nat.log2_self_le hn
  have nHigh : (n : ℚ) < 2 ^ n.log2 * 2 := by exact_mod_cast Nat.lt_log2_self (n := n)
  have dLow : (2 : ℚ) ^ d.log2 ≤ d := by exact_mod_cast Nat.log2_self_le hd.ne'
  have dHigh : (d : ℚ) < 2 ^ d.log2 * 2 := by exact_mod_cast Nat.lt_log2_self (n := d)
  have low : (2 : ℚ) ^ 52 * 2 ^ q < x := by
    rw [← value, lt_div_iff₀ (Nat.cast_pos.2 hd)]
    calc (2 : ℚ) ^ 52 * 2 ^ q * d < 2 ^ 52 * 2 ^ q * (2 ^ d.log2 * 2) := by gcongr
      _ = 2 ^ n.log2 := by rw [← unit]; ring
      _ ≤ n := nLow
  have high : x < 2 ^ 54 * (2 : ℚ) ^ q := by
    rw [← value, div_lt_iff₀ (Nat.cast_pos.2 hd)]
    calc (n : ℚ) < 2 ^ n.log2 * 2 := nHigh
      _ = 2 ^ 54 * 2 ^ q * 2 ^ d.log2 := by rw [← unit]; ring
      _ ≤ 2 ^ 54 * 2 ^ q * d := by gcongr
  have next : (2 : ℚ) ^ (q + 1) = 2 * 2 ^ q := by rw [zpow_add_one₀ two_ne_zero, mul_comm]
  have test : (scale n d q).1 < (scale n d q).2 * Nat.pow 2 53 ↔ x < 2 ^ 53 * (2 : ℚ) ^ q := by
    rw [← value, ← div_lt_iff₀ grid, ← scaled, div_lt_iff₀ (Nat.cast_pos.2 positive), mul_comm]
    norm_cast
  have fits : ∃ e, exponentFor n d = max minExponent e ∧ x < 2 ^ 53 * (2 : ℚ) ^ e
      ∧ 2 ^ 52 * (2 : ℚ) ^ e ≤ x := by
    by_cases small : (scale n d q).1 < (scale n d q).2 * Nat.pow 2 53
    · exact ⟨q, by simp only [exponentFor, ← hq, if_pos small], test.1 small, low.le⟩
    · refine ⟨q + 1, by simp only [exponentFor, ← hq, if_neg small], ?_, ?_⟩
      · rw [next]
        linarith
      · have large := not_lt.1 (test.not.1 small)
        rw [next]
        linarith
  obtain ⟨e, found, below, above⟩ := fits
  rw [found]
  refine ⟨le_max_left _ _, below.trans_le ?_, ?_⟩
  · have : (2 : ℚ) ^ e ≤ 2 ^ max minExponent e := zpow_le_zpow_right₀ one_le_two (le_max_right _ _)
    linarith
  · obtain least | greater := le_total e minExponent
    · exact .inl (max_eq_left least)
    · exact .inr (by rwa [max_eq_right greater])

/-! The number that a rational is rounded to. -/

/-- The whole number of units of `2 ^ q` that is nearest to a rational. -/
def units (x : ℚ) (q : Int) : Nat :=
  roundHalfEven (scale x.num.natAbs x.den q).1 (scale x.num.natAbs x.den q).2

/-- The magnitude that a rational is rounded to, if exponents have no greatest. -/
def rounded (x : ℚ) : ℚ := units x (gridExponent x) * (2 : ℚ) ^ gridExponent x

theorem scale_of_nonneg {x : ℚ} (h : 0 ≤ x) (q : Int) :
    0 < (scale x.num.natAbs x.den q).2
      ∧ ((scale x.num.natAbs x.den q).1 : ℚ) / (scale x.num.natAbs x.den q).2 = x / 2 ^ q := by
  obtain ⟨positive, scaled⟩ := scale_spec x.num.natAbs x.den_pos q
  exact ⟨positive, by rw [scaled, natAbs_num_div_den h]⟩

theorem units_mono {x y : ℚ} (h : 0 ≤ x) (le : x ≤ y) (q : Int) : units x q ≤ units y q := by
  obtain ⟨positive, scaled⟩ := scale_of_nonneg h q
  obtain ⟨positive', scaled'⟩ := scale_of_nonneg (h.trans le) q
  refine roundHalfEven_mono positive positive' ?_
  rw [scaled, scaled']
  gcongr

theorem le_units {x : ℚ} {q : Int} {k : Nat} (h : 0 ≤ x) (le : k * (2 : ℚ) ^ q ≤ x) :
    k ≤ units x q := by
  obtain ⟨positive, scaled⟩ := scale_of_nonneg h q
  refine le_roundHalfEven positive ?_
  rwa [scaled, le_div_iff₀ (by positivity)]

theorem units_le {x : ℚ} {q : Int} {k : Nat} (h : 0 ≤ x) (le : x ≤ k * (2 : ℚ) ^ q) :
    units x q ≤ k := by
  obtain ⟨positive, scaled⟩ := scale_of_nonneg h q
  refine roundHalfEven_le_of_le positive ?_
  rwa [scaled, div_le_iff₀ (by positivity)]

theorem units_gridExponent_le {x : ℚ} (h : 0 < x) : units x (gridExponent x) ≤ 2 ^ 53 := by
  refine units_le h.le ?_
  exact_mod_cast (isExponent_gridExponent h).below.le

theorem full_or_least {x : ℚ} (h : 0 < x) :
    gridExponent x = minExponent ∨ 2 ^ 52 ≤ units x (gridExponent x) := by
  refine (isExponent_gridExponent h).above.imp_right fun above => le_units h.le ?_
  exact_mod_cast above

theorem rounded_mono {x y : ℚ} (h : 0 < x) (le : x ≤ y) : rounded x ≤ rounded y := by
  have hy := h.trans_le le
  obtain less | grids := ((isExponent_gridExponent h).le (isExponent_gridExponent hy) le).lt_or_eq
  · -- The power of two that begins the upper grid is on both.
    obtain least | full := full_or_least hy
    · have := (isExponent_gridExponent h).least
      omega
    have low : (units x (gridExponent x) : ℚ) ≤ 2 ^ 53 := by
      exact_mod_cast units_gridExponent_le h
    have high : (2 : ℚ) ^ 52 ≤ units y (gridExponent y) := by exact_mod_cast full
    have step : 2 * (2 : ℚ) ^ gridExponent x ≤ 2 ^ gridExponent y := by
      rw [mul_comm, ← zpow_add_one₀ two_ne_zero]
      exact zpow_le_zpow_right₀ one_le_two less
    calc rounded x ≤ 2 ^ 53 * 2 ^ gridExponent x := by
          rw [rounded]
          gcongr
      _ = 2 ^ 52 * (2 * 2 ^ gridExponent x) := by ring
      _ ≤ 2 ^ 52 * 2 ^ gridExponent y := by gcongr
      _ ≤ rounded y := by
          rw [rounded]
          gcongr
  · rw [rounded, rounded, ← grids]
    gcongr
    exact units_mono h.le le _

/-- A significand and an exponent that make up a number of the format: all digits are used unless
the exponent is the least. -/
structure Canonical (m : Nat) (q : Int) : Prop where
  fits : m < 2 ^ 53
  least : minExponent ≤ q
  greatest : q ≤ maxExponent
  full : q = minExponent ∨ 2 ^ 52 ≤ m

/-- The number of some units, of which there may be one more than fit a significand. -/
def ofUnits (negative : Bool) (m : Nat) (q : Int) : Binary64 :=
  let (m, q) := if m = Nat.pow 2 53 then (Nat.pow 2 52, q + 1) else (m, q)
  if maxExponent < q then .infinite negative else .finite negative m q

theorem ofRat_of_pos {x : ℚ} (h : 0 < x) (negative : Bool) :
    ofRat negative x = ofUnits negative (units x (gridExponent x)) (gridExponent x) := by
  have hn : x.num.natAbs ≠ 0 := by simpa using h.ne'
  -- The exponent and the scaled rational are named, so that nothing computes with them.
  generalize found : gridExponent x = e
  cases scaled : scale x.num.natAbs x.den e with
  | mk a b =>
      rw [units, scaled, ofRat]
      lift_lets
      intro q
      rw [if_neg hn, show q = e from found, scaled]
      rfl

theorem ofUnits_eq_finite {negative s : Bool} {n m : Nat} {e q : Int}
    (found : ofUnits negative n e = .finite s m q) :
    s = negative ∧ q ≤ maxExponent
      ∧ (n = 2 ^ 53 ∧ m = 2 ^ 52 ∧ q = e + 1 ∨ n ≠ 2 ^ 53 ∧ m = n ∧ q = e) := by
  by_cases carried : n = Nat.pow 2 53
  · simp only [ofUnits, if_pos carried] at found
    split at found <;> cases found
    exact ⟨rfl, by omega, .inl ⟨carried, rfl, rfl⟩⟩
  · simp only [ofUnits, if_neg carried] at found
    split at found <;> cases found
    exact ⟨rfl, by omega, .inr ⟨carried, rfl, rfl⟩⟩

theorem ofUnits_of_ne {m : Nat} {q : Int} (other : m ≠ 2 ^ 53) (greatest : q ≤ maxExponent)
    (negative : Bool) : ofUnits negative m q = .finite negative m q := by
  have plain : ¬m = Nat.pow 2 53 := other
  simp only [ofUnits, if_neg plain, if_neg (Int.not_lt.2 greatest)]

theorem ofUnits_carried {q : Int} (greatest : q + 1 ≤ maxExponent) (negative : Bool) :
    ofUnits negative (2 ^ 53) q = .finite negative (2 ^ 52) (q + 1) := by
  have carried : 2 ^ 53 = Nat.pow 2 53 := rfl
  simp only [ofUnits, if_pos carried, if_neg (Int.not_lt.2 greatest)]
  rfl

theorem ofUnits_sign {s : Bool} {n m : Nat} {e q : Int} (found : ofUnits s n e = .finite s m q)
    (negative : Bool) : ofUnits negative n e = .finite negative m q := by
  obtain ⟨_, greatest, ⟨rfl, rfl, rfl⟩ | ⟨other, rfl, rfl⟩⟩ := ofUnits_eq_finite found
  · exact ofUnits_carried greatest negative
  · exact ofUnits_of_ne other greatest negative

@[simp] theorem ofRat_zero (negative : Bool) : ofRat negative 0 = zero negative := rfl

theorem ofRat_eq_finite {x : ℚ} (h : 0 < x) {negative s : Bool} {m : Nat} {q : Int}
    (found : ofRat negative x = .finite s m q) :
    s = negative ∧ Canonical m q ∧ magnitude m q = rounded x := by
  have least := (isExponent_gridExponent h).least
  rw [ofRat_of_pos h] at found
  obtain ⟨rfl, greatest, ⟨carried, rfl, rfl⟩ | ⟨other, rfl, rfl⟩⟩ := ofUnits_eq_finite found
  · refine ⟨rfl, ⟨by norm_num, Int.le_trans least (by omega), greatest, .inr le_rfl⟩, ?_⟩
    rw [magnitude_eq, rounded, carried, zpow_add_one₀ two_ne_zero]
    push_cast
    ring
  · have fits := lt_of_le_of_ne (units_gridExponent_le h) other
    exact ⟨rfl, ⟨fits, least, greatest, full_or_least h⟩, magnitude_eq _ _⟩

theorem ofRat_magnitude {m : Nat} {q : Int} (h : Canonical m q) (positive : m ≠ 0)
    (negative : Bool) : ofRat negative (magnitude m q) = .finite negative m q := by
  have hx := magnitude_pos positive q
  rw [magnitude_eq] at hx ⊢
  have onGrid : IsExponent (m * 2 ^ q) q := by
    refine ⟨h.least, ?_, h.full.imp_right fun full => ?_⟩
    · have fits : (m : ℚ) < 2 ^ 53 := by exact_mod_cast h.fits
      gcongr
    · have full : (2 : ℚ) ^ 52 ≤ m := by exact_mod_cast full
      gcongr
  have exponent : gridExponent (m * 2 ^ q) = q :=
    Int.le_antisymm ((isExponent_gridExponent hx).le onGrid le_rfl)
      (onGrid.le (isExponent_gridExponent hx) le_rfl)
  have whole : units (m * 2 ^ q) q = m :=
    Nat.le_antisymm (units_le hx.le le_rfl) (le_units hx.le le_rfl)
  rw [ofRat_of_pos hx, exponent, whole, ofUnits_of_ne h.fits.ne h.greatest]

theorem rounded_magnitude {m : Nat} {q : Int} (h : Canonical m q) (positive : m ≠ 0) :
    rounded (magnitude m q) = magnitude m q := by
  obtain ⟨_, _, value⟩ := ofRat_eq_finite (magnitude_pos positive q)
    (ofRat_magnitude h positive false)
  exact value.symm

/-- What a rational is rounded to does not depend on the sign that is put to it. -/
theorem ofRat_sign {x : ℚ} (h : 0 < x) {s : Bool} {m : Nat} {q : Int}
    (found : ofRat s x = .finite s m q) (negative : Bool) :
    ofRat negative x = .finite negative m q := by
  rw [ofRat_of_pos h] at found ⊢
  exact ofUnits_sign found negative

/-- Numbers as rounding leaves them. -/
def IsRounded : Binary64 → Prop
  | .finite _ m q => Canonical m q
  | .infinite _ => True
  | .nan => False

theorem isRounded_ofRat {x : ℚ} (h : 0 ≤ x) (negative : Bool) : (ofRat negative x).IsRounded := by
  obtain positive | rfl := h.lt_or_eq
  · cases found : ofRat negative x with
    | finite s m q => exact (ofRat_eq_finite positive found).2.1
    | infinite s => trivial
    | nan =>
        rw [ofRat_of_pos positive, ofUnits] at found
        split at found
        split at found <;> cases found
  · exact ⟨by norm_num, le_rfl, by decide, .inl rfl⟩

/-- Numbers of the format that have one magnitude are one number. -/
theorem Canonical.eq_of_magnitude_eq {m n : Nat} {q r : Int} (h : Canonical m q)
    (h' : Canonical n r) (positive : m ≠ 0) (positive' : n ≠ 0)
    (same : magnitude m q = magnitude n r) : m = n ∧ q = r := by
  have found := ofRat_magnitude h positive false
  rw [same, ofRat_magnitude h' positive' false] at found
  cases found
  exact ⟨rfl, rfl⟩

/-! Integers. -/

theorem IsExponent.lt_of_lt {x : ℚ} {e k : Int} (h : IsExponent x e) (bound : x < 2 ^ k)
    (least : minExponent < k - 52) : e < k - 52 := by
  obtain rfl | above := h.above
  · exact least
  · have grid : (2 : ℚ) ^ (52 + e) < 2 ^ k := by
      rw [zpow_add₀ two_ne_zero]
      exact above.trans_lt bound
    have := (zpow_lt_zpow_iff_right₀ (one_lt_two (α := ℚ))).1 grid
    omega

theorem exists_canonical_natCast {k : Nat} (positive : k ≠ 0) (h : k < 2 ^ 53) :
    ∃ m q, m ≠ 0 ∧ Canonical m q ∧ magnitude m q = k := by
  have hx : (0 : ℚ) < k := Nat.cast_pos.2 (Nat.pos_of_ne_zero positive)
  have exponent := isExponent_gridExponent hx
  have bound : (k : ℚ) < 2 ^ (53 : ℤ) := by exact_mod_cast h
  have whole := exponent.lt_of_lt bound (by decide)
  obtain ⟨j, found⟩ : ∃ j : Nat, gridExponent k = -j := ⟨(gridExponent k).natAbs, by omega⟩
  rw [found] at exponent
  have value : ((k * 2 ^ j : Nat) : ℚ) * 2 ^ (-j : ℤ) = k := by
    push_cast
    rw [zpow_neg, zpow_natCast, mul_assoc, mul_inv_cancel₀ (by positivity), mul_one]
  have grid : (0 : ℚ) < 2 ^ (-j : ℤ) := by positivity
  refine ⟨k * 2 ^ j, -j, Nat.mul_ne_zero positive (by positivity), ⟨?_, exponent.least, ?_, ?_⟩, ?_⟩
  · have below := exponent.below
    rw [← value] at below
    exact_mod_cast lt_of_mul_lt_mul_right below grid.le
  · exact Int.le_trans (by omega) (by decide : (0 : Int) ≤ maxExponent)
  · refine exponent.above.imp_right fun above => ?_
    rw [← value] at above
    exact_mod_cast le_of_mul_le_mul_right above grid
  · rw [magnitude_eq, value]

/-- Integers of up to 53 binary digits are numbers of the format. -/
theorem exists_ofRat_natCast {k : Nat} (h : k < 2 ^ 53) (negative : Bool) :
    ∃ m q, ofRat negative k = .finite negative m q ∧ magnitude m q = k := by
  by_cases positive : k = 0
  · subst positive
    exact ⟨0, minExponent, ofRat_zero negative, by simp [magnitude_eq]⟩
  · obtain ⟨m, q, nonzero, canonical, value⟩ := exists_canonical_natCast positive h
    exact ⟨m, q, by rw [← value, ofRat_magnitude canonical nonzero], value⟩

/-- What is not beyond the greatest exponent is not rounded to infinity. -/
theorem exists_ofRat_finite {x : ℚ} (h : 0 ≤ x) (bound : x < 2 ^ (1022 : ℤ)) (negative : Bool) :
    ∃ m q, ofRat negative x = .finite negative m q := by
  obtain positive | rfl := h.lt_or_eq
  · have below := (isExponent_gridExponent positive).lt_of_lt bound (by decide)
    have greatest : gridExponent x + 1 ≤ maxExponent := by
      have : maxExponent = 971 := rfl
      omega
    rw [ofRat_of_pos positive]
    by_cases carried : units x (gridExponent x) = 2 ^ 53
    · rw [carried, ofUnits_carried greatest]
      exact ⟨_, _, rfl⟩
    · rw [ofUnits_of_ne carried (by omega)]
      exact ⟨_, _, rfl⟩
  · exact ⟨0, minExponent, ofRat_zero negative⟩

theorem exists_ofInt_finite {n : Int} (low : -2 ^ 63 ≤ n) (high : n ≤ 2 ^ 63 - 1) :
    ∃ negative m q, ofInt n = .finite negative m q := by
  have small : n.natAbs ≤ 2 ^ 63 := by omega
  have bound : (n.natAbs : ℚ) < 2 ^ (1022 : ℤ) := calc
    (n.natAbs : ℚ) ≤ 2 ^ (63 : ℤ) := by exact_mod_cast small
    _ < 2 ^ (1022 : ℤ) := zpow_lt_zpow_right₀ one_lt_two (by decide)
  obtain ⟨m, q, found⟩ := exists_ofRat_finite (Nat.cast_nonneg _) bound (n < 0)
  refine ⟨decide (n < 0), m, q, ?_⟩
  rw [ofInt, Rat.mkRat_one, ← found]
  rfl

theorem ofInt_natCast (k : Nat) : ofInt k = ofRat false k := by
  rw [ofInt, Int.natAbs_natCast, Rat.mkRat_one, decide_eq_false (Int.not_lt.2 k.cast_nonneg)]
  rfl

/-- Dividing an integer that is a number of the format rounds once. -/
theorem divNat_ofInt {k : Nat} (h : k < 2 ^ 53) (d : Nat) :
    (ofInt k).divNat d = ofRat false (k / d) := by
  obtain ⟨m, q, found, value⟩ := exists_ofRat_natCast h false
  rw [ofInt_natCast, found, divNat, value]
  rw [Rat.mkRat_eq_div]
  simp

end Binary64

end MarkupCascade
