import Freshen.Number.Decimal

/-!
Decimals that read back. The magnitude nearest to a quotient depends on its value alone, a quotient
that is a whole number of units is read exactly, and so the shortest decimal of a finite magnitude
reads back as it.
-/

namespace Freshen

namespace Double

theorem roundEven_mul_right {factor : Nat} (positive : 0 < factor) (num den : Nat) :
    roundEven (num * factor) (den * factor) = roundEven num den := by
  have quotient : num * factor / (den * factor) = num / den := Nat.mul_div_mul_right _ _ positive
  have remainder : num * factor % (den * factor) = num % den * factor :=
    Nat.mul_mod_mul_right _ _ _
  have below : 2 * (num % den * factor) < den * factor ↔ 2 * (num % den) < den := by
    rw [← Nat.mul_assoc]
    exact Nat.mul_lt_mul_right positive
  have half : 2 * (num % den * factor) = den * factor ↔ 2 * (num % den) = den := by
    rw [← Nat.mul_assoc]
    exact Nat.mul_right_cancel_iff positive
  simp only [roundEven, quotient, remainder, below, half]

theorem roundEven_of_multiple {den : Nat} (positive : 0 < den) (n : Nat) :
    roundEven (n * den) den = n := by
  simp [roundEven, Nat.mul_div_cancel n positive, positive]

theorem nearest_mul_right {factor : Nat} (positive : 0 < factor) (num den : Nat) :
    nearest (num * factor) (den * factor) = nearest num den := by
  have whole : num * factor * one / (den * factor) = num * one / den := by
    rw [Nat.mul_right_comm]
    exact Nat.mul_div_mul_right _ _ positive
  simp only [nearest, whole]
  rw [Nat.mul_right_comm num, Nat.mul_right_comm den, roundEven_mul_right positive]

theorem nearest_congr {num den other last : Nat} (positive : 0 < den) (positive' : 0 < last)
    (same : num * last = other * den) : nearest num den = nearest other last :=
  calc
    nearest num den = nearest (num * last) (den * last) := (nearest_mul_right positive' ..).symm
    _ = nearest (other * den) (last * den) := by rw [same, Nat.mul_comm den]
    _ = nearest other last := nearest_mul_right positive ..

/-- A finite magnitude is nearest to its own value. -/
theorem nearest_of_units {num den magnitude : Nat} (positive : 0 < den)
    (finite : magnitude < infinity) (exactly : num * one = units magnitude * den) :
    nearest num den = magnitude := by
  have whole : num * one / den = units magnitude := by
    rw [exactly, Nat.mul_div_cancel _ positive]
  have bounded : min infinity magnitude = magnitude := Nat.min_eq_right (Nat.le_of_lt finite)
  by_cases small : magnitude < binade
  · -- below the first binade a magnitude is its own number of units
    have value : units magnitude = magnitude := by simp [units, small]
    have shift : magnitude.log2 - 52 = 0 := by
      by_cases zero : magnitude = 0
      · simp [zero]
      · have below : magnitude.log2 < 52 := (Nat.log2_lt zero).mpr small
        omega
    have rounded : roundEven (num * one) (den * Nat.pow 2 0) = magnitude := by
      rw [exactly, value, Nat.pow_eq, Nat.pow_zero, Nat.mul_one]
      exact roundEven_of_multiple positive magnitude
    simp only [nearest, whole, value, shift, rounded, Nat.zero_mul, Nat.zero_add, bounded]
  · -- above it the units are a fraction of 53 bits, moved by the exponent
    generalize significand : binade + magnitude % binade = fraction
    generalize scale : magnitude / binade - 1 = exponent
    have value : units magnitude = fraction * Nat.pow 2 exponent := by
      simp only [units, if_neg small, significand, scale]
    have inside : magnitude % binade < binade := Nat.mod_lt _ (by decide)
    have split := Nat.div_add_mod magnitude binade
    have powered : 0 < Nat.pow 2 exponent := Nat.pow_pos (by decide)
    have low : Nat.pow 2 (52 + exponent) ≤ units magnitude := by
      rw [value, Nat.pow_eq, Nat.pow_add]
      exact Nat.mul_le_mul_right _ (by simp only [binade] at significand; omega)
    have high : units magnitude < Nat.pow 2 (52 + exponent + 1) := by
      rw [value, Nat.add_right_comm, Nat.pow_eq, Nat.pow_eq, Nat.pow_add]
      exact Nat.mul_lt_mul_of_pos_right (by simp only [binade] at significand inside; omega) powered
    have shift : (units magnitude).log2 - 52 = exponent := by
      have positive : units magnitude ≠ 0 := by
        have below : 0 < Nat.pow 2 (52 + exponent) := Nat.pow_pos (by decide)
        omega
      rw [(Nat.log2_eq_iff positive).mpr ⟨low, high⟩]
      omega
    have rounded : roundEven (num * one) (den * Nat.pow 2 exponent) = fraction := by
      rw [exactly, value, Nat.mul_assoc, Nat.mul_comm (Nat.pow 2 exponent)]
      exact roundEven_of_multiple (Nat.mul_pos positive powered) fraction
    have total : exponent * binade + fraction = magnitude := by
      simp only [binade] at *
      omega
    simp only [nearest, whole, shift, rounded, total, bounded]

theorem roundEven_le (num den : Nat) : roundEven num den ≤ num / den + 1 := by
  rw [roundEven]
  split <;> omega

theorem log2_mul_pow_le {num bits : Nat} (small : num < Nat.pow 2 bits) (exponent : Nat) :
    (num * Nat.pow 2 exponent).log2 ≤ bits + exponent := by
  by_cases zero : num * Nat.pow 2 exponent = 0
  · rw [zero]
    exact Nat.zero_le _
  · refine Nat.le_of_lt ((Nat.log2_lt zero).mpr ?_)
    rw [Nat.pow_add]
    exact Nat.mul_lt_mul_of_pos_right small (Nat.two_pow_pos exponent)

/-- Whole numbers of fewer bits than the largest exponent are not rounded to infinity. -/
theorem nearest_lt_infinity {num bits : Nat} (small : num < Nat.pow 2 bits) (few : bits < 1000) :
    nearest num 1 < infinity := by
  have short : (num * one).log2 ≤ bits + 1074 := log2_mul_pow_le small 1074
  rw [nearest, Nat.div_one, Nat.one_mul, binade, infinity]
  generalize num * one = units at short
  have high : units < 0x20000000000000 * Nat.pow 2 (units.log2 - 52) :=
    calc units < 2 ^ (units.log2 + 1) := Nat.lt_log2_self
      _ ≤ 2 ^ (53 + (units.log2 - 52)) := Nat.pow_le_pow_right (by decide) (by omega)
      _ = 0x20000000000000 * Nat.pow 2 (units.log2 - 52) := by rw [Nat.pow_add]; rfl
  have quotient := (Nat.div_lt_iff_lt_mul (Nat.two_pow_pos _)).mpr high
  have rounded := roundEven_le units (Nat.pow 2 (units.log2 - 52))
  simp only [Nat.pow_eq] at quotient rounded ⊢
  omega

theorem magnitude_ofMagnitude {magnitude : Nat} (negative : Bool) (small : magnitude < signBit) :
    (ofMagnitude negative magnitude).magnitude = magnitude := by
  rw [signBit] at small
  rw [ofMagnitude, Double.magnitude, signBit]
  cases negative
  · rw [if_neg Bool.false_ne_true, UInt64.toNat_ofNat']
    omega
  · rw [if_pos rfl, UInt64.toNat_ofNat']
    omega

theorem isFinite_ofInt {n : Int} (least : -0x8000000000000000 ≤ n)
    (most : n < 0x10000000000000000) : (ofInt n).isFinite := by
  have small : n.natAbs < Nat.pow 2 65 := by
    rw [show Nat.pow 2 65 = 0x20000000000000000 from rfl]
    omega
  have finite := nearest_lt_infinity small (by decide)
  rw [isFinite, ofInt, magnitude_ofMagnitude _ (Nat.lt_trans finite (by decide)), decide_eq_true_eq]
  exact finite

end Double

namespace Decimal

theorem digitCount_le_iff {n count : Nat} (positive : 0 < count) :
    digitCount n ≤ count ↔ n < Nat.pow 10 count :=
  Nat.length_toDigits_le_iff (by decide) positive

theorem digitCount_mul_pow {n : Nat} (positive : 0 < n) (zeros : Nat) :
    digitCount (n * Nat.pow 10 zeros) = digitCount n + zeros := by
  induction zeros with
  | zero => simp
  | succ zeros ih =>
      have scaled : 0 < n * Nat.pow 10 zeros := Nat.mul_pos positive (Nat.pow_pos (by decide))
      have digits : Nat.toDigits 10 (10 * (n * Nat.pow 10 zeros) + 0) =
          Nat.toDigits 10 (n * Nat.pow 10 zeros) ++ Nat.toDigits 10 0 :=
        (Nat.toDigits_append_toDigits (by decide) scaled (by decide)).symm
      have product : n * Nat.pow 10 (zeros + 1) = 10 * (n * Nat.pow 10 zeros) + 0 := by
        rw [Nat.pow_eq, Nat.pow_succ, ← Nat.mul_assoc, Nat.mul_comm _ 10]
        rfl
      rw [product, digitCount, digits, List.length_append, Nat.toDigits_zero]
      rw [digitCount] at ih
      simp only [ih, List.length_singleton, Nat.add_assoc]

theorem quotient_den_pos (d : Decimal) : 0 < d.quotient.2 := by
  rw [quotient]
  split
  · exact Nat.one_pos
  · exact Nat.pow_pos (by decide)

theorem quotient_scale (digits zeros : Nat) (exponent : Int) :
    (quotient ⟨digits * Nat.pow 10 zeros, exponent⟩).1 * (quotient ⟨digits, exponent + zeros⟩).2 =
      (quotient ⟨digits, exponent + zeros⟩).1 *
        (quotient ⟨digits * Nat.pow 10 zeros, exponent⟩).2 := by
  have joined (first second : Nat) :
      Nat.pow 10 first * Nat.pow 10 second = Nat.pow 10 (first + second) :=
    (Nat.pow_add 10 first second).symm
  by_cases whole : 0 ≤ exponent
  · have more : 0 ≤ exponent + zeros := by omega
    have powers : zeros + exponent.toNat = (exponent + zeros).toNat := by omega
    simp only [quotient, if_pos whole, if_pos more, Nat.mul_one, Nat.mul_assoc, joined, powers]
  · by_cases enough : 0 ≤ exponent + zeros
    · have powers : (exponent + zeros).toNat + (-exponent).toNat = zeros := by omega
      simp only [quotient, if_neg whole, if_pos enough, Nat.mul_one, Nat.mul_assoc, joined, powers]
    · have powers : zeros + (-(exponent + zeros)).toNat = (-exponent).toNat := by omega
      simp only [quotient, if_neg whole, if_neg enough, Nat.mul_assoc, joined, powers]

theorem magnitude_scale (digits zeros : Nat) (exponent : Int) :
    magnitude ⟨digits * Nat.pow 10 zeros, exponent⟩ = magnitude ⟨digits, exponent + zeros⟩ := by
  by_cases zero : digits = 0
  · simp [magnitude, zero]
  · have positive : 0 < digits := Nat.pos_of_ne_zero zero
    have scaled : digits * Nat.pow 10 zeros ≠ 0 :=
      Nat.pos_iff_ne_zero.mp (Nat.mul_pos positive (Nat.pow_pos (by decide)))
    have order : ((digitCount (digits * Nat.pow 10 zeros) : Nat) : Int) + exponent =
        digitCount digits + (exponent + zeros) := by
      rw [digitCount_mul_pow positive]
      omega
    have nearest := Double.nearest_congr (quotient_den_pos ⟨digits * Nat.pow 10 zeros, exponent⟩)
      (quotient_den_pos ⟨digits, exponent + zeros⟩) (quotient_scale digits zeros exponent)
    simp only [magnitude, zero, scaled, order, nearest]

/-- A decimal whose value is a finite magnitude reads back as it. -/
theorem magnitude_of_units {d : Decimal} {magnitude : Nat} (finite : magnitude < Double.infinity)
    (positive : d.digits ≠ 0) (low : -330 ≤ digitCount d.digits + d.exponent)
    (high : digitCount d.digits + d.exponent ≤ 310)
    (exactly : d.quotient.1 * Double.one = Double.units magnitude * d.quotient.2) :
    d.magnitude = magnitude := by
  have inside : ¬ (d.digits = 0 ∨ (digitCount d.digits : Int) + d.exponent < -330) := by omega
  have below : ¬ 310 < (digitCount d.digits : Int) + d.exponent := by omega
  simp only [Decimal.magnitude, if_neg inside, if_neg below]
  exact Double.nearest_of_units d.quotient_den_pos finite exactly

theorem units_pos {magnitude : Nat} (positive : 0 < magnitude) : 0 < Double.units magnitude := by
  rw [Double.units]
  split
  · exact positive
  · exact Nat.mul_pos (Nat.add_pos_left (by decide) _) (Nat.pow_pos (by decide))

theorem units_lt {magnitude : Nat} (finite : magnitude < Double.infinity) :
    Double.units magnitude < Nat.pow 2 2098 := by
  have larger (first second : Nat) (le : first ≤ second) : Nat.pow 2 first ≤ Nat.pow 2 second :=
    Nat.pow_le_pow_right (by decide) le
  rw [Double.units]
  split
  · rename_i small
    exact Nat.lt_trans small (by decide +kernel)
  · have fraction : Double.binade + magnitude % Double.binade < Nat.pow 2 53 := by
      have inside : magnitude % Double.binade < Double.binade := Nat.mod_lt _ (by decide)
      have twice : Nat.pow 2 53 = Double.binade + Double.binade := by decide
      omega
    have exponent : 53 + (magnitude / Double.binade - 1) ≤ 2098 := by
      simp only [Double.infinity, Double.binade] at *
      omega
    generalize magnitude / Double.binade - 1 = scale at exponent
    have positive : 0 < Nat.pow 2 scale := Nat.pow_pos (by decide)
    calc
      _ < Nat.pow 2 53 * Nat.pow 2 scale := Nat.mul_lt_mul_of_pos_right fraction positive
      _ = Nat.pow 2 (53 + scale) := (Nat.pow_add ..).symm
      _ ≤ Nat.pow 2 2098 := larger (53 + scale) 2098 exponent

theorem exact_reads_back {magnitude : Nat} (positive : 0 < magnitude)
    (finite : magnitude < Double.infinity) : (exact magnitude).magnitude = magnitude := by
  have some : 0 < Double.units magnitude := units_pos positive
  have fives : 0 < Nat.pow 5 1074 := by decide +kernel
  have least : Nat.pow 10 744 ≤ Double.units magnitude * Nat.pow 5 1074 :=
    calc
      Nat.pow 10 744 ≤ Nat.pow 5 1074 := by decide +kernel
      _ ≤ Double.units magnitude * Nat.pow 5 1074 := Nat.le_mul_of_pos_left _ some
  have most : Double.units magnitude * Nat.pow 5 1074 < Nat.pow 10 1384 :=
    Nat.lt_of_lt_of_le (Nat.mul_lt_mul_of_pos_right (units_lt finite) fives) (by decide +kernel)
  have many : ¬ digitCount (Double.units magnitude * Nat.pow 5 1074) ≤ 744 := by
    intro fewer
    have less := (digitCount_le_iff (by decide)).mp fewer
    omega
  have few : digitCount (Double.units magnitude * Nat.pow 5 1074) ≤ 1384 :=
    (digitCount_le_iff (by decide)).mpr most
  have digits : (exact magnitude).digits = Double.units magnitude * Nat.pow 5 1074 := rfl
  have exponent : (exact magnitude).exponent = -1074 := rfl
  apply magnitude_of_units finite
  · rw [digits]
    exact Nat.pos_iff_ne_zero.mp (Nat.mul_pos some fives)
  · rw [digits, exponent]
    omega
  · rw [digits, exponent]
    omega
  · have tens : Nat.pow 5 1074 * Double.one = Nat.pow 10 1074 := by decide +kernel
    have power : (-(-1074 : Int)).toNat = 1074 := rfl
    simp only [quotient, digits, exponent, power, if_neg (by decide : ¬ (0 : Int) ≤ -1074),
      Nat.mul_assoc, tens]

theorem taken_reads_back {low high d : Decimal} {magnitude : Nat} {near : Prop} [Decidable near]
    (taken : (match low.magnitude == magnitude, high.magnitude == magnitude with
      | true, true => if near then some low else some high
      | true, false => some low
      | false, true => some high
      | false, false => none) = some d) : d.magnitude = magnitude := by
  split at taken
  · rename_i reads also
    split at taken <;> cases taken
    · exact eq_of_beq reads
    · exact eq_of_beq also
  · rename_i reads _
    cases taken
    exact eq_of_beq reads
  · rename_i _ reads
    cases taken
    exact eq_of_beq reads
  · cases taken

theorem withDigits?_reads_back {magnitude count : Nat} {d : Decimal}
    (found : withDigits? magnitude count = some d) : d.magnitude = magnitude :=
  taken_reads_back found

theorem digits_trim (d : Decimal) :
    d.trim.digits * Nat.pow 10 (((Nat.toDigits 10 d.digits).reverse.takeWhile (· == '0')).length) =
      d.digits := by
  generalize tail : (Nat.toDigits 10 d.digits).reverse.takeWhile (· == '0') = zeros
  generalize front : (Nat.toDigits 10 d.digits).reverse.dropWhile (· == '0') = rest
  have trimmed : d.trim.digits = d.digits / Nat.pow 10 zeros.length := by
    rw [← tail]
    rfl
  have all : zeros = List.replicate zeros.length '0' := by
    apply List.eq_replicate_of_mem
    intro c member
    rw [← tail] at member
    simpa using List.all_eq_true.mp List.all_takeWhile c member
  have split : Nat.toDigits 10 d.digits = rest.reverse ++ List.replicate zeros.length '0' := by
    apply List.reverse_inj.mp
    rw [List.reverse_append, List.reverse_reverse, List.reverse_replicate, ← all, ← tail, ← front,
      List.takeWhile_append_dropWhile]
  have value : Nat.pow 10 zeros.length * Nat.ofDigitChars 10 rest.reverse 0 = d.digits := by
    have read := Nat.ofDigitChars_ten_toDigits (n := d.digits)
    rw [split, Nat.ofDigitChars_append, Nat.ofDigitChars_replicate_zero] at read
    exact read
  rw [trimmed]
  exact Nat.div_mul_cancel ⟨_, value.symm⟩

theorem trim_reads_back (d : Decimal) : d.trim.magnitude = d.magnitude := by
  have scaled := magnitude_scale d.trim.digits
    (((Nat.toDigits 10 d.digits).reverse.takeWhile (· == '0')).length) d.exponent
  rw [digits_trim] at scaled
  exact scaled.symm

/-- The shortest decimal of a finite magnitude reads back as it. -/
theorem shortest_reads_back {magnitude : Nat} (positive : 0 < magnitude)
    (finite : magnitude < Double.infinity) : (shortest magnitude).magnitude = magnitude := by
  rw [shortest, trim_reads_back]
  cases found : (List.range' 1 17).findSome? (withDigits? magnitude) with
  | none => exact exact_reads_back positive finite
  | some d =>
      obtain ⟨count, _, found⟩ := List.exists_of_findSome?_eq_some found
      exact withDigits?_reads_back found

end Decimal

end Freshen
