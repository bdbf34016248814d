import Freshen.Proofs.Rounding
import Mathlib.Algebra.Order.Field.Rat
import Mathlib.Algebra.Order.Group.Unbundled.Abs
import Mathlib.Order.Monotone.Basic
import Mathlib.Tactic.Linarith
import Mathlib.Tactic.Positivity
import Mathlib.Tactic.Ring

/-!
Rounding, said by distances alone. Of all magnitudes, infinity included where the next number would
be, the one that a decimal is read as has the least distance from it, and of two with the same
distance it is the even one. There is only one such magnitude.
-/

namespace Freshen

namespace Double

/-- The value of a magnitude. Infinity stands for the number that would come next, 2^1024. -/
def rational (magnitude : Nat) : ℚ := units magnitude / one

/-- No magnitude is nearer to a number, and if another one is as near, this is the even one. -/
structure IsNearest (number : ℚ) (magnitude : Nat) : Prop where
  bounded : magnitude ≤ infinity
  least : ∀ other ≤ infinity, |number - rational magnitude| ≤ |number - rational other|
  even : ∀ other ≤ infinity, other ≠ magnitude →
    |number - rational magnitude| = |number - rational other| → magnitude % 2 = 0

/-! Magnitudes by the exponent they share with others. The first one of an exponent may also be
taken as the one behind the last of the exponent before. -/

theorem units_binade {shift fraction : Nat} (low : shift = 0 ∨ binade ≤ fraction)
    (high : fraction ≤ 2 * binade) :
    units (shift * binade + fraction) = fraction * Nat.pow 2 shift := by
  by_cases small : fraction < binade
  · have first : shift = 0 := low.resolve_right (Nat.not_le_of_lt small)
    simp [first, units, small]
  · have start : ¬ shift * binade + fraction < binade := by omega
    rw [units, if_neg start]
    by_cases last : fraction = 2 * binade
    · have quotient : (shift * binade + fraction) / binade - 1 = shift + 1 := by
        simp only [binade] at last ⊢
        omega
      have remainder : (shift * binade + fraction) % binade = 0 := by
        simp only [binade] at last ⊢
        omega
      rw [quotient, remainder, last, Nat.add_zero, Nat.pow_eq, Nat.pow_eq, Nat.pow_succ,
        Nat.mul_comm _ 2, ← Nat.mul_assoc, Nat.mul_comm binade]
    · have quotient : (shift * binade + fraction) / binade - 1 = shift := by
        simp only [binade] at small high last ⊢
        omega
      have remainder : binade + (shift * binade + fraction) % binade = fraction := by
        simp only [binade] at small high last ⊢
        omega
      rw [quotient, remainder]

theorem units_succ {shift fraction : Nat} (low : shift = 0 ∨ binade ≤ fraction)
    (high : fraction < 2 * binade) :
    units (shift * binade + fraction) + Nat.pow 2 shift =
      units (shift * binade + (fraction + 1)) := by
  rw [units_binade low (Nat.le_of_lt high), units_binade (low.imp_right Nat.le_succ_of_le) high,
    Nat.succ_mul]

theorem exists_binade (magnitude : Nat) :
    ∃ shift fraction, magnitude = shift * binade + fraction ∧ (shift = 0 ∨ binade ≤ fraction) ∧
      fraction < 2 * binade := by
  by_cases small : magnitude < binade
  · exact ⟨0, magnitude, by simp, Or.inl rfl, by omega⟩
  · refine ⟨magnitude / binade - 1, binade + magnitude % binade, ?_, Or.inr (by omega), ?_⟩
    · simp only [binade] at small ⊢
      omega
    · simp only [binade]
      omega

theorem units_strictMono : StrictMono units := by
  apply strictMono_nat_of_lt_succ
  intro magnitude
  obtain ⟨shift, fraction, rfl, low, high⟩ := exists_binade magnitude
  rw [Nat.add_assoc, ← units_succ low high]
  exact Nat.lt_add_of_pos_right (Nat.two_pow_pos shift)

/-! Distances are compared in units of 2^-1074. -/

theorem one_pos : (0 : ℚ) < one := by
  have positive : 0 < one := by decide +kernel
  exact_mod_cast positive

theorem distance_eq (number : ℚ) (magnitude : Nat) :
    |number - rational magnitude| = |number * one - units magnitude| / one := by
  have scaled : number - rational magnitude = (number * one - units magnitude) / one := by
    rw [rational, sub_div, mul_div_cancel_right₀ _ one_pos.ne']
  rw [scaled, abs_div, abs_of_pos one_pos]

theorem distance_le_iff {number : ℚ} {magnitude other : Nat} :
    |number - rational magnitude| ≤ |number - rational other| ↔
      |number * one - units magnitude| ≤ |number * one - units other| := by
  rw [distance_eq, distance_eq, div_le_div_iff_of_pos_right one_pos]

theorem distance_eq_iff {number : ℚ} {magnitude other : Nat} :
    |number - rational magnitude| = |number - rational other| ↔
      |number * one - units magnitude| = |number * one - units other| := by
  rw [distance_eq, distance_eq, div_left_inj' one_pos.ne']

theorem units_lt_iff {magnitude other : Nat} :
    (units magnitude : ℚ) < units other ↔ magnitude < other := by
  rw [Nat.cast_lt, units_strictMono.lt_iff_lt]

/-- A magnitude within half a gap of a number is nearest to it, if the magnitudes on the side where
the number is keep the whole gap. -/
theorem isNearest_of_gap (gap : ℚ) {number : ℚ} {magnitude : Nat} (bounded : magnitude ≤ infinity)
    (close : |number * one - units magnitude| ≤ gap / 2)
    (tie : |number * one - units magnitude| = gap / 2 → magnitude % 2 = 0)
    (above : units magnitude < number * one → ∀ other ≤ infinity, magnitude < other →
      units magnitude + gap ≤ units other)
    (below : number * one < units magnitude → ∀ other < magnitude,
      units other + gap ≤ units magnitude) : IsNearest number magnitude := by
  have compare : ∀ other ≤ infinity, other ≠ magnitude →
      |number * one - units magnitude| < |number * one - units other| ∨
        |number * one - units magnitude| = gap / 2 ∧
          |number * one - units magnitude| ≤ |number * one - units other| := by
    intro other inside different
    -- on the side away from the number any other magnitude is farther off without the gap
    rcases Nat.lt_or_gt_of_ne different with lower | higher
    · have less := units_lt_iff.mpr lower
      have rising := le_abs_self (number * one - units other)
      rcases lt_or_ge (number * one) (units magnitude) with left | right
      · have apart := below left other lower
        rw [abs_of_neg (by linarith : number * one - units magnitude < 0)] at close ⊢
        rcases close.lt_or_eq with strict | half
        · exact Or.inl (by linarith)
        · exact Or.inr ⟨half, by linarith⟩
      · rw [abs_of_nonneg (by linarith : 0 ≤ number * one - units magnitude)]
        exact Or.inl (by linarith)
    · have more := units_lt_iff.mpr higher
      have falling := neg_le_abs (number * one - units other)
      rcases lt_or_ge (units magnitude : ℚ) (number * one) with right | left
      · have apart := above right other inside higher
        rw [abs_of_pos (by linarith : 0 < number * one - units magnitude)] at close ⊢
        rcases close.lt_or_eq with strict | half
        · exact Or.inl (by linarith)
        · exact Or.inr ⟨half, by linarith⟩
      · rw [abs_of_nonpos (by linarith : number * one - units magnitude ≤ 0)]
        exact Or.inl (by linarith)
  refine ⟨bounded, ?_, ?_⟩
  · intro other inside
    rw [distance_le_iff]
    by_cases same : other = magnitude
    · rw [same]
    · rcases compare other inside same with nearer | ⟨_, near⟩
      · exact nearer.le
      · exact near
  · intro other inside different equal
    rw [distance_eq_iff] at equal
    rcases compare other inside different with nearer | ⟨half, _⟩
    · exact absurd equal nearer.ne
    · exact tie half

theorem IsNearest.unique {number : ℚ} {magnitude other : Nat} (first : IsNearest number magnitude)
    (second : IsNearest number other) : magnitude = other := by
  by_contra different
  wlog less : magnitude < other generalizing magnitude other
  · exact this second first (Ne.symm different) (by omega)
  have equal := le_antisymm (first.least other second.bounded)
    (second.least magnitude first.bounded)
  have even := first.even other second.bounded (Ne.symm different) equal
  have also := second.even magnitude first.bounded different equal.symm
  -- both are even, so that a third magnitude stands between them, which is nearer than both
  have between : magnitude + 1 < other := by omega
  have least := first.least (magnitude + 1) (Nat.le_of_lt (between.trans_le second.bounded))
  rw [distance_le_iff] at least
  rw [distance_eq_iff] at equal
  have low := units_lt_iff.mpr (Nat.lt_succ_self magnitude)
  have high := units_lt_iff.mpr between
  have centre : 2 * (number * one) = units magnitude + units other := by
    rcases abs_eq_abs.mp equal with same | opposite
    · linarith
    · linarith
  have nearer : |number * one - units (magnitude + 1)| < |number * one - units magnitude| := by
    rw [abs_of_pos (by linarith : 0 < number * one - units magnitude), abs_lt]
    constructor
    · linarith
    · linarith
  exact absurd least (not_le_of_gt nearer)

theorem roundEven_close {den : Nat} (positive : 0 < den) (num : Nat) :
    |(num / den : ℚ) - roundEven num den| ≤ 1 / 2 ∧
      (|(num / den : ℚ) - roundEven num den| = 1 / 2 → roundEven num den % 2 = 0) := by
  have above : (0 : ℚ) < den := by exact_mod_cast positive
  generalize low : num / den = whole
  generalize left : num % den = rest
  have value : (num / den : ℚ) = whole + rest / den := by
    have division : den * whole + rest = num := by rw [← low, ← left, Nat.div_add_mod]
    rw [← division, Nat.cast_add, Nat.cast_mul, add_div, mul_div_cancel_left₀ _ above.ne']
  have nonneg : (0 : ℚ) ≤ rest / den := by positivity
  have half : (rest / den : ℚ) = 1 / 2 ↔ 2 * rest = den := by
    rw [div_eq_div_iff above.ne' two_ne_zero, one_mul, mul_comm]
    exact_mod_cast Iff.rfl
  have less : (rest / den : ℚ) < 1 / 2 ↔ 2 * rest < den := by
    rw [div_lt_div_iff₀ above two_pos, one_mul, mul_comm]
    exact_mod_cast Iff.rfl
  rw [value]
  simp only [roundEven, low, left]
  split
  · rename_i down
    have small : (rest / den : ℚ) ≤ 1 / 2 := by
      rcases down with strict | ⟨equal, _⟩
      · exact (less.mpr strict).le
      · exact (half.mpr equal).le
    rw [add_sub_cancel_left, abs_of_nonneg nonneg]
    refine ⟨small, fun equal => ?_⟩
    have exactly := half.mp equal
    omega
  · rename_i up
    have large : 1 / 2 ≤ (rest / den : ℚ) := by
      rw [← not_lt, less]
      omega
    have inside : (rest / den : ℚ) < 1 := by
      rw [div_lt_one above, ← left]
      exact_mod_cast Nat.mod_lt num positive
    have distance : |(whole + rest / den : ℚ) - (whole + 1 : Nat)| = 1 - rest / den := by
      rw [Nat.cast_succ, abs_of_neg (by linarith)]
      ring
    rw [distance]
    refine ⟨by linarith, fun equal => ?_⟩
    have exactly := half.mp (by linarith)
    omega

/-- The exponent that is taken leaves a fraction of at most 53 bits, and of no fewer unless it is
the least one. -/
theorem log2_bounds (whole : Nat) :
    (whole.log2 - 52 = 0 ∨ binade * Nat.pow 2 (whole.log2 - 52) ≤ whole) ∧
      whole < 2 * binade * Nat.pow 2 (whole.log2 - 52) := by
  have powers (exponent : Nat) : binade * Nat.pow 2 exponent = 2 ^ (52 + exponent) :=
    (Nat.pow_add 2 52 exponent).symm
  constructor
  · by_cases least : whole.log2 - 52 = 0
    · exact Or.inl least
    · refine Or.inr ?_
      have some : whole ≠ 0 := by
        rintro rfl
        exact least (by simp)
      rw [powers, show 52 + (whole.log2 - 52) = whole.log2 by omega]
      exact Nat.log2_self_le some
  · rw [Nat.mul_assoc, powers, ← Nat.pow_succ']
    exact Nat.lt_of_lt_of_le Nat.lt_log2_self (Nat.pow_le_pow_right (by decide) (by omega))

theorem quotient_bounds {den : Nat} (positive : 0 < den) (num : Nat) {shift : Nat}
    (exponent : (num / den).log2 - 52 = shift) :
    (shift = 0 ∨ (binade : ℚ) ≤ num / (den * Nat.pow 2 shift : Nat)) ∧
      (num / (den * Nat.pow 2 shift : Nat) : ℚ) < 2 * binade := by
  obtain ⟨low, high⟩ := log2_bounds (num / den)
  rw [exponent] at low high
  have scaled : (0 : ℚ) < (den * Nat.pow 2 shift : Nat) := by
    exact_mod_cast Nat.mul_pos positive (Nat.two_pow_pos shift)
  constructor
  · refine low.imp_right fun low => ?_
    rw [le_div_iff₀ scaled]
    rw [Nat.le_div_iff_mul_le positive] at low
    exact_mod_cast (by rwa [Nat.mul_comm den, ← Nat.mul_assoc] :
      binade * (den * Nat.pow 2 shift) ≤ num)
  · rw [div_lt_iff₀ scaled]
    rw [Nat.div_lt_iff_lt_mul positive] at high
    exact_mod_cast (by rwa [Nat.mul_comm den, ← Nat.mul_assoc] :
      num < 2 * binade * (den * Nat.pow 2 shift))

theorem isNearest_infinity {number : ℚ} (large : units infinity ≤ number * one) :
    IsNearest number infinity := by
  apply isNearest_of_gap (2 * (number * one - units infinity)) (Nat.le_refl _)
  · rw [abs_of_nonneg (by linarith)]
    linarith
  · intro _
    rfl
  · intro _ other inside higher
    exact absurd higher (Nat.not_lt_of_le inside)
  · intro less
    exact absurd less (not_lt_of_ge large)

theorem isNearest_of_fraction {number quotient : ℚ} {shift fraction : Nat}
    (value : number * one = quotient * Nat.pow 2 shift)
    (low : shift = 0 ∨ (binade : ℚ) ≤ quotient) (high : quotient < 2 * binade)
    (close : |quotient - fraction| ≤ 1 / 2)
    (even : |quotient - fraction| = 1 / 2 → fraction % 2 = 0) :
    IsNearest number (min infinity (shift * binade + fraction)) := by
  have step : (0 : ℚ) < Nat.pow 2 shift := by exact_mod_cast Nat.two_pow_pos shift
  obtain ⟨downward, upward⟩ := abs_le.mp close
  have least : shift = 0 ∨ binade ≤ fraction := by
    refine low.imp_right fun low => Nat.le_of_lt_succ ?_
    have bound : (binade : ℚ) < fraction + 1 := by linarith
    exact_mod_cast bound
  have most : fraction ≤ 2 * binade := by
    refine Nat.le_of_lt_succ ?_
    have bound : (fraction : ℚ) < 2 * binade + 1 := by linarith
    exact_mod_cast bound
  have here := units_binade least most
  rcases le_or_gt (shift * binade + fraction) infinity with inside | outside
  · rw [Nat.min_eq_right inside]
    have distance : |number * one - units (shift * binade + fraction)| =
        |quotient - fraction| * Nat.pow 2 shift := by
      rw [here, value, Nat.cast_mul, ← sub_mul, abs_mul, abs_of_pos step]
    apply isNearest_of_gap (Nat.pow 2 shift) inside
    · rw [distance]
      nlinarith
    · intro half
      rw [distance] at half
      have tie : |quotient - fraction| = 1 / 2 := by
        apply mul_right_cancel₀ step.ne'
        rw [half]
        ring
      have parity := even tie
      simp only [binade]
      omega
    · -- the number is above, so the next magnitude has the same exponent
      intro above other _ higher
      rw [here, value, Nat.cast_mul, mul_lt_mul_iff_left₀ step] at above
      have room : fraction < 2 * binade := by exact_mod_cast above.trans high
      have next := units_strictMono.monotone (Nat.succ_le_of_lt higher)
      exact_mod_cast (units_succ least room).trans_le next
    · -- the number is below, so the magnitude before has the same exponent
      intro below other lower
      rw [here, value, Nat.cast_mul, mul_lt_mul_iff_left₀ step] at below
      have room : shift = 0 ∨ binade < fraction := by
        refine low.imp_right fun low => ?_
        exact_mod_cast lt_of_le_of_lt low below
      obtain ⟨before, rfl⟩ : ∃ before, fraction = before + 1 := by
        refine Nat.exists_eq_add_one.mpr (Nat.pos_of_ne_zero ?_)
        rintro rfl
        rcases room with rfl | room
        · simp at lower
        · exact Nat.not_lt_zero _ room
      have previous := units_strictMono.monotone (Nat.le_of_lt_succ lower)
      have gap := units_succ (room.imp_right Nat.le_of_lt_succ) (Nat.lt_of_succ_le most)
      rw [← gap]
      exact_mod_cast Nat.add_le_add_right previous _
  · -- only the largest exponent leads past infinity, and there the quotient is not below 2^52
    rw [Nat.min_eq_left (Nat.le_of_lt outside)]
    have far : infinity ≤ shift * binade + binade := by
      simp only [infinity, binade] at outside most ⊢
      omega
    have large : (binade : ℚ) ≤ quotient := by
      refine low.resolve_left ?_
      rintro rfl
      exact absurd far (by decide)
    have limit := units_strictMono.monotone far
    rw [units_binade (Or.inr (Nat.le_refl _)) (by decide)] at limit
    apply isNearest_infinity
    calc
      (units infinity : ℚ) ≤ binade * Nat.pow 2 shift := by exact_mod_cast limit
      _ ≤ quotient * Nat.pow 2 shift := mul_le_mul_of_nonneg_right large step.le
      _ = number * one := value.symm

/-- What is nearest by the arithmetic of bit patterns is nearest by distance. -/
theorem isNearest_nearest {den : Nat} (positive : 0 < den) (num : Nat) :
    IsNearest (num / den) (nearest num den) := by
  generalize exponent : (num * one / den).log2 - 52 = shift
  have scale : 0 < Nat.pow 2 shift := Nat.two_pow_pos shift
  have step : (Nat.pow 2 shift : ℚ) ≠ 0 := by exact_mod_cast scale.ne'
  obtain ⟨low, high⟩ := quotient_bounds positive (num * one) exponent
  obtain ⟨close, even⟩ := roundEven_close (Nat.mul_pos positive scale) (num * one)
  have value : (num / den : ℚ) * one =
      (num * one : Nat) / (den * Nat.pow 2 shift : Nat) * Nat.pow 2 shift := by
    rw [Nat.cast_mul, Nat.cast_mul, div_mul_eq_mul_div, div_mul_eq_mul_div,
      mul_div_mul_right _ _ step]
  simp only [nearest, exponent]
  exact isNearest_of_fraction value low high close even

theorem isNearest_zero {number : ℚ} (nonneg : 0 ≤ number) (small : 2 * (number * one) < 1) :
    IsNearest number 0 := by
  have zero : (units 0 : ℚ) = 0 := by norm_num [units, binade]
  have scaled : 0 ≤ number * one := mul_nonneg nonneg one_pos.le
  apply isNearest_of_gap 1 (Nat.zero_le _)
  · rw [zero, sub_zero, abs_of_nonneg scaled]
    linarith
  · intro _
    rfl
  · intro _ other _ higher
    rw [zero, zero_add]
    exact_mod_cast Decimal.units_pos higher
  · intro _ other lower
    exact absurd lower (Nat.not_lt_zero other)

end Double

namespace Decimal

def value (d : Decimal) : ℚ := d.digits * (10 : ℚ) ^ d.exponent

theorem value_eq_quotient (d : Decimal) : d.value = d.quotient.1 / d.quotient.2 := by
  rw [value, quotient]
  split
  · rename_i whole
    obtain ⟨exponent, same⟩ := Int.eq_ofNat_of_zero_le whole
    simp [same]
  · rename_i broken
    obtain ⟨exponent, same⟩ := Int.eq_ofNat_of_zero_le (by omega : 0 ≤ -d.exponent)
    rw [show d.exponent = -(exponent : Int) by omega]
    simp [div_eq_mul_inv]

theorem digits_lt (d : Decimal) : d.digits < Nat.pow 10 (digitCount d.digits) :=
  (digitCount_le_iff Nat.length_toDigits_pos).mp (Nat.le_refl _)

theorem le_digits {d : Decimal} (some : d.digits ≠ 0) {count : Nat}
    (fewer : count < digitCount d.digits) : Nat.pow 10 count ≤ d.digits := by
  rcases Nat.eq_zero_or_pos count with rfl | positive
  · exact Nat.pos_of_ne_zero some
  · by_contra less
    have most := (digitCount_le_iff positive).mpr (Nat.lt_of_not_le less)
    omega

theorem quotient_lt {d : Decimal} {places : Nat}
    (order : digitCount d.digits + d.exponent ≤ -places) :
    d.quotient.1 * Nat.pow 10 places < d.quotient.2 := by
  have count : 0 < digitCount d.digits := Nat.length_toDigits_pos
  rw [quotient, if_neg (by omega)]
  calc
    d.digits * Nat.pow 10 places < Nat.pow 10 (digitCount d.digits) * Nat.pow 10 places :=
      Nat.mul_lt_mul_of_pos_right d.digits_lt (Nat.pow_pos (by decide))
    _ = Nat.pow 10 (digitCount d.digits + places) := (Nat.pow_add ..).symm
    _ ≤ Nat.pow 10 (-d.exponent).toNat := Nat.pow_le_pow_right (by decide) (by omega)

theorem le_quotient {d : Decimal} (some : d.digits ≠ 0) {places : Nat}
    (order : places < digitCount d.digits + d.exponent) :
    Nat.pow 10 places * d.quotient.2 ≤ d.quotient.1 := by
  rw [quotient]
  split
  · have count : 0 < digitCount d.digits := Nat.length_toDigits_pos
    calc
      Nat.pow 10 places * 1 ≤ Nat.pow 10 (digitCount d.digits - 1 + d.exponent.toNat) := by
        rw [Nat.mul_one]
        exact Nat.pow_le_pow_right (by decide) (by omega)
      _ = Nat.pow 10 (digitCount d.digits - 1) * Nat.pow 10 d.exponent.toNat := Nat.pow_add ..
      _ ≤ d.digits * Nat.pow 10 d.exponent.toNat :=
        Nat.mul_le_mul_right _ (le_digits some (by omega))
  · have joined : Nat.pow 10 places * Nat.pow 10 (-d.exponent).toNat =
        Nat.pow 10 (places + (-d.exponent).toNat) := (Nat.pow_add ..).symm
    rw [joined]
    exact le_digits some (by omega)

theorem tiny_value {d : Decimal} (places : Nat) (limit : 2 * Double.one ≤ Nat.pow 10 places)
    (order : digitCount d.digits + d.exponent ≤ -places) : 2 * (d.value * Double.one) < 1 := by
  have small : d.quotient.1 * (2 * Double.one) < d.quotient.2 :=
    Nat.lt_of_le_of_lt (Nat.mul_le_mul_left _ limit) (quotient_lt order)
  have positive : (0 : ℚ) < d.quotient.2 := by exact_mod_cast d.quotient_den_pos
  rw [value_eq_quotient, ← mul_div_right_comm, ← mul_div_assoc, div_lt_one positive,
    mul_left_comm]
  exact_mod_cast small

theorem huge_value {d : Decimal} (some : d.digits ≠ 0) (places : Nat)
    (limit : Double.units Double.infinity ≤ Nat.pow 10 places * Double.one)
    (order : places < digitCount d.digits + d.exponent) :
    Double.units Double.infinity ≤ d.value * Double.one := by
  have large := le_quotient some order
  have positive : (0 : ℚ) < d.quotient.2 := by exact_mod_cast d.quotient_den_pos
  have value : (Nat.pow 10 places : ℚ) ≤ d.value := by
    rw [value_eq_quotient, le_div_iff₀ positive]
    exact_mod_cast large
  calc
    (Double.units Double.infinity : ℚ) ≤ Nat.pow 10 places * Double.one := by exact_mod_cast limit
    _ ≤ d.value * Double.one := mul_le_mul_of_nonneg_right value Double.one_pos.le

/-- Decimals are read as the magnitude nearest to them, also where no power of ten is computed. -/
theorem isNearest_magnitude (d : Decimal) : Double.IsNearest d.value d.magnitude := by
  rw [magnitude]
  split
  · rename_i small
    have nonneg : 0 ≤ d.value := by
      rw [value_eq_quotient]
      positivity
    apply Double.isNearest_zero nonneg
    rcases small with zero | tiny
    · rw [value, zero, Nat.cast_zero, zero_mul, zero_mul, mul_zero]
      exact zero_lt_one
    · exact tiny_value 331 (by decide +kernel) (by omega)
  · rename_i normal
    split
    · rename_i huge
      have some : d.digits ≠ 0 := fun zero => normal (Or.inl zero)
      exact Double.isNearest_infinity (huge_value some 310 (by decide +kernel) huge)
    · rw [value_eq_quotient]
      exact Double.isNearest_nearest d.quotient_den_pos _

end Decimal

end Freshen
