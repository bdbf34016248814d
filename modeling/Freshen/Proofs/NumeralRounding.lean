import Freshen.Proofs.Nearest
import Freshen.Proofs.NumeralReading

/-!
What a numeral means, and that a finite double is what its own numeral is rounded to. The number
is the exact one that the digits, the point and the exponent stand for; rounding is to the nearest
double, to the even one of two. The sign is that of the text, so that zeros keep theirs.
-/

namespace Freshen

@[ext] structure Digits where
  chars : List Char
  some : chars ≠ []
  all : ∀ c ∈ chars, c.isDigit = true

namespace Digits

def number (digits : Digits) : Nat := Nat.ofDigitChars 10 digits.chars 0

def ofNat (n : Nat) : Digits :=
  ⟨Nat.toDigits 10 n, Nat.toDigits_ne_nil,
    fun _ => Nat.isDigit_of_mem_toDigits (by decide) (by decide)⟩

@[simp] theorem number_ofNat (n : Nat) : (ofNat n).number = n := Nat.ofDigitChars_ten_toDigits

theorem first_isDigit {digits : Digits} {c : Char} {rest tail : List Char}
    (same : digits.chars ++ rest = c :: tail) : c.isDigit = true := by
  cases front : digits.chars with
  | nil => exact absurd front digits.some
  | cons first more =>
      rw [front] at same
      obtain rfl := (List.cons.inj same).1
      exact digits.all first (by simp [front])

theorem append_inj {digits other : Digits} {rest tail : List Char} (stops : Stops Char.isDigit rest)
    (ends : Stops Char.isDigit tail) (same : digits.chars ++ rest = other.chars ++ tail) :
    digits = other ∧ rest = tail := by
  have fronts := congrArg (List.takeWhile Char.isDigit) same
  have backs := congrArg (List.dropWhile Char.isDigit) same
  rw [takeWhile_append_stop digits.all stops, takeWhile_append_stop other.all ends] at fronts
  rw [dropWhile_append_stop digits.all stops, dropWhile_append_stop other.all ends] at backs
  exact ⟨Digits.ext fronts, backs⟩

end Digits

def signText (negative : Bool) : List Char := if negative then ['-'] else []

theorem signText_inj {negative other : Bool} {digits digits' : Digits} {rest tail : List Char}
    (same : signText negative ++ (digits.chars ++ rest) =
      signText other ++ (digits'.chars ++ tail)) :
    negative = other ∧ digits.chars ++ rest = digits'.chars ++ tail := by
  have minus : Char.isDigit '-' ≠ true := by decide
  cases negative with
  | false =>
      cases other with
      | false => exact ⟨rfl, same⟩
      | true => exact absurd (Digits.first_isDigit same) minus
  | true =>
      cases other with
      | false => exact absurd (Digits.first_isDigit same.symm) minus
      | true => exact ⟨rfl, (List.cons.inj same).2⟩

/-- A decimal numeral: `[-]digits[.digits][e[-]digits]`. -/
structure Numeral where
  negative : Bool
  whole : Digits
  fraction : Option Digits
  exponent : Option (Bool × Digits)

namespace Numeral

def fractionText : Option Digits → List Char
  | none => []
  | some digits => '.' :: digits.chars

def exponentText : Option (Bool × Digits) → List Char
  | none => []
  | some (negative, digits) => 'e' :: (signText negative ++ digits.chars)

def text (numeral : Numeral) : List Char :=
  signText numeral.negative ++
    (numeral.whole.chars ++ (fractionText numeral.fraction ++ exponentText numeral.exponent))

def fractionValue : Option Digits → ℚ
  | none => 0
  | some digits => digits.number / (10 : ℚ) ^ digits.chars.length

def exponentValue : Option (Bool × Digits) → ℤ
  | none => 0
  | some (false, digits) => digits.number
  | some (true, digits) => -digits.number

def size (numeral : Numeral) : ℚ :=
  (numeral.whole.number + fractionValue numeral.fraction) *
    (10 : ℚ) ^ exponentValue numeral.exponent

def value (numeral : Numeral) : ℚ := if numeral.negative then -numeral.size else numeral.size

theorem stops_exponentText (exponent : Option (Bool × Digits)) :
    Stops Char.isDigit (exponentText exponent) := by
  cases exponent with
  | none => exact fun c first => nomatch first
  | some exponent => exact Stops.cons rfl _

theorem stops_fractionText (fraction : Option Digits) (exponent : Option (Bool × Digits)) :
    Stops Char.isDigit (fractionText fraction ++ exponentText exponent) := by
  cases fraction with
  | none => exact stops_exponentText exponent
  | some digits => exact Stops.cons rfl _

theorem exponentText_injective {exponent other : Option (Bool × Digits)}
    (same : exponentText exponent = exponentText other) : exponent = other := by
  have nothing : Stops Char.isDigit [] := fun c first => nomatch first
  cases exponent with
  | none =>
      cases other with
      | none => rfl
      | some other => exact nomatch same
  | some exponent =>
      cases other with
      | none => exact nomatch same
      | some other =>
          have rest := (List.cons.inj same).2
          rw [← List.append_nil exponent.2.chars, ← List.append_nil other.2.chars] at rest
          obtain ⟨signs, digits⟩ := signText_inj rest
          rw [Prod.ext signs (Digits.append_inj nothing nothing digits).1]

theorem fractionText_inj {fraction fraction' : Option Digits}
    {exponent exponent' : Option (Bool × Digits)}
    (same : fractionText fraction ++ exponentText exponent =
      fractionText fraction' ++ exponentText exponent') :
    fraction = fraction' ∧ exponentText exponent = exponentText exponent' := by
  cases fraction with
  | none =>
      cases fraction' with
      | none => exact ⟨rfl, same⟩
      | some digits =>
          cases exponent with
          | none => exact nomatch same
          | some exponent => exact absurd (List.cons.inj same).1 (by decide)
  | some digits =>
      cases fraction' with
      | none =>
          cases exponent' with
          | none => exact nomatch same
          | some exponent => exact absurd (List.cons.inj same).1 (by decide)
      | some digits' =>
          obtain ⟨rfl, rest⟩ := Digits.append_inj (stops_exponentText exponent)
            (stops_exponentText exponent') (List.cons.inj same).2
          exact ⟨rfl, rest⟩

/-- A text can be read as a numeral in one way only. -/
theorem text_injective {numeral other : Numeral} (same : numeral.text = other.text) :
    numeral = other := by
  obtain ⟨negative, whole, fraction, exponent⟩ := numeral
  obtain ⟨negative', whole', fraction', exponent'⟩ := other
  obtain ⟨rfl, unsigned⟩ := signText_inj same
  obtain ⟨rfl, broken⟩ :=
    Digits.append_inj (stops_fractionText _ _) (stops_fractionText _ _) unsigned
  obtain ⟨rfl, scaled⟩ := fractionText_inj broken
  obtain rfl := exponentText_injective scaled
  rfl

/-! The numeral of some digits is worth what the decimal of these digits is worth. -/

def fractionOf (after : List Char) (all : ∀ c ∈ after, c.isDigit = true) : Option Digits :=
  if some : after = [] then none else .some ⟨after, some, all⟩

def exponentOf (scale : Option ℤ) : Option (Bool × Digits) :=
  scale.map fun exponent => (decide (exponent < 0), Digits.ofNat exponent.natAbs)

theorem fractionText_fractionOf (after : List Char) (all : ∀ c ∈ after, c.isDigit = true) :
    fractionText (fractionOf after all) = if after = [] then [] else '.' :: after := by
  rw [fractionOf]
  split <;> rfl

theorem exponentText_exponentOf (scale : Option ℤ) :
    exponentText (exponentOf scale) = scaleText scale := by
  cases scale with
  | none => rfl
  | some exponent =>
      simp only [exponentOf, Option.map_some, exponentText, scaleText, Digits.ofNat, signText,
        Int.toString_eq_repr, Int.repr_eq_if, decide_eq_true_eq]
      by_cases negative : exponent < 0
      · rw [if_pos negative, if_neg (by omega), show exponent.natAbs = (-exponent).toNat by omega]
        simp [Nat.toList_repr]
      · rw [if_neg negative, if_pos (by omega), show exponent.natAbs = exponent.toNat by omega]
        simp [Nat.toList_repr]

theorem fractionValue_fractionOf (after : List Char) (all : ∀ c ∈ after, c.isDigit = true) :
    fractionValue (fractionOf after all) =
      Nat.ofDigitChars 10 after 0 / (10 : ℚ) ^ after.length := by
  rw [fractionOf]
  split
  · rename_i none
    simp [none, fractionValue]
  · rfl

theorem exponentValue_exponentOf (scale : Option ℤ) :
    exponentValue (exponentOf scale) = scale.getD 0 := by
  cases scale with
  | none => rfl
  | some exponent =>
      by_cases negative : exponent < 0
      · simp only [exponentOf, Option.map_some, negative, decide_true, exponentValue,
          Digits.number_ofNat, Option.getD_some]
        omega
      · simp only [exponentOf, Option.map_some, negative, decide_false, exponentValue,
          Digits.number_ofNat, Option.getD_some]
        omega

theorem size_eq_decimal {numeral : Numeral} {after : List Char} {scale : Option ℤ}
    (all : ∀ c ∈ after, c.isDigit = true) (fraction : numeral.fraction = fractionOf after all)
    (exponent : numeral.exponent = exponentOf scale) :
    numeral.size = Decimal.value ⟨Nat.ofDigitChars 10 (numeral.whole.chars ++ after) 0,
      scale.getD 0 - after.length⟩ := by
  have ten : (10 : ℚ) ≠ 0 := by norm_num
  have places : (10 : ℚ) ^ after.length ≠ 0 := pow_ne_zero _ ten
  have joined : Nat.ofDigitChars 10 (numeral.whole.chars ++ after) 0 =
      10 ^ after.length * numeral.whole.number + Nat.ofDigitChars 10 after 0 := by
    rw [Nat.ofDigitChars_append, Nat.ofDigitChars_eq_ofDigitChars_zero, Digits.number]
  rw [size, fraction, exponent, fractionValue_fractionOf, exponentValue_exponentOf, Decimal.value,
    joined, zpow_sub₀ ten, zpow_natCast, Nat.cast_add, Nat.cast_mul, Nat.cast_pow, Nat.cast_ofNat,
    ← mul_div_assoc, mul_div_right_comm, add_div, mul_div_cancel_left₀ _ places]

theorem size_nonneg (numeral : Numeral) : 0 ≤ numeral.size := by
  have fraction : 0 ≤ fractionValue numeral.fraction := by
    cases numeral.fraction with
    | none => exact le_refl _
    | some digits =>
        rw [fractionValue]
        positivity
  rw [size]
  exact mul_nonneg (by positivity) (zpow_nonneg (by norm_num) _)

end Numeral

namespace Double

/-- The number that a double stands for; infinities stand for 2^1024 and its negative. -/
def value (x : Double) : ℚ := if x.isNegative then -rational x.magnitude else rational x.magnitude

/-- No double is nearer to a number, and if another value is as near, this is the one with the even
pattern. -/
structure Rounds (number : ℚ) (x : Double) : Prop where
  isNumber : x.isNaN = false
  least : ∀ y : Double, y.isNaN = false → |number - x.value| ≤ |number - y.value|
  even : ∀ y : Double, y.isNaN = false → y.value ≠ x.value →
    |number - x.value| = |number - y.value| → x.magnitude % 2 = 0

theorem isNaN_eq_false_iff {x : Double} : x.isNaN = false ↔ x.magnitude ≤ infinity := by
  rw [isNaN, decide_eq_false_iff_not, Nat.not_lt]

theorem isNegative_ofMagnitude {magnitude : Nat} (negative : Bool) (small : magnitude < signBit) :
    (ofMagnitude negative magnitude).isNegative = negative := by
  rw [signBit] at small
  rw [ofMagnitude, isNegative, signBit]
  cases negative with
  | false =>
      rw [if_neg Bool.false_ne_true, UInt64.toNat_ofNat', decide_eq_false_iff_not]
      omega
  | true =>
      rw [if_pos rfl, UInt64.toNat_ofNat', decide_eq_true_eq]
      omega

theorem eq_of_magnitude {x y : Double} (signs : x.isNegative = y.isNegative)
    (magnitudes : x.magnitude = y.magnitude) : x = y := by
  have bits : x.bits.toNat = y.bits.toNat := by
    have above := x.bits.toNat_lt
    have above' := y.bits.toNat_lt
    rw [isNegative, isNegative, decide_eq_decide] at signs
    simp only [Double.magnitude, signBit] at signs magnitudes
    omega
  cases x with
  | mk pattern =>
      cases y with
      | mk pattern' => exact congrArg Double.mk (UInt64.toNat_inj.mp bits)

theorem rational_nonneg (magnitude : Nat) : 0 ≤ rational magnitude := by
  rw [rational]
  positivity

theorem rational_zero : rational 0 = 0 := by
  have none : units 0 = 0 := rfl
  rw [rational, none, Nat.cast_zero, zero_div]

theorem distance_of_sign {size : ℚ} {x : Double} {negative : Bool}
    (sign : x.isNegative = negative) :
    |(if negative then -size else size) - x.value| = |size - rational x.magnitude| := by
  rw [value, sign]
  cases negative with
  | false => rfl
  | true =>
      rw [if_pos rfl, if_pos rfl, ← abs_neg]
      congr 1
      ring

/-- A double with the other sign is not nearer than the one with the same magnitude. -/
theorem distance_of_other_sign {size : ℚ} (nonneg : 0 ≤ size) {x : Double} {negative : Bool}
    (sign : x.isNegative ≠ negative) :
    |(if negative then -size else size) - x.value| = size + rational x.magnitude := by
  have sum : 0 ≤ size + rational x.magnitude := add_nonneg nonneg (rational_nonneg _)
  rw [value]
  cases negative with
  | false =>
      have minus : x.isNegative = true := by simpa using sign
      rw [minus, if_neg Bool.false_ne_true, if_pos rfl, sub_neg_eq_add, abs_of_nonneg sum]
  | true =>
      have plus : x.isNegative = false := by simpa using sign
      rw [plus, if_pos rfl, if_neg Bool.false_ne_true, ← neg_add', abs_neg, abs_of_nonneg sum]

theorem abs_sub_le_add {size other : ℚ} (nonneg : 0 ≤ size) (nonneg' : 0 ≤ other) :
    |size - other| ≤ size + other :=
  abs_le.mpr ⟨by linarith, by linarith⟩

theorem rational_injective : Function.Injective rational := by
  intro magnitude other same
  rw [rational, rational, div_left_inj' one_pos.ne', Nat.cast_inj] at same
  exact units_strictMono.injective same

theorem magnitude_of_value {x y : Double} (signs : x.isNegative = y.isNegative)
    (values : x.value = y.value) : x.magnitude = y.magnitude := by
  rw [value, value, signs] at values
  split at values
  · exact rational_injective (neg_injective values)
  · exact rational_injective values

theorem IsNearest.eq_zero_of_distance {size : ℚ} (nonneg : 0 ≤ size) {magnitude : Nat}
    (nearest : IsNearest size magnitude)
    (distance : |size - rational magnitude| = size + rational magnitude) : magnitude = 0 := by
  have least := nearest.least 0 (Nat.zero_le _)
  rw [distance, rational_zero, sub_zero, abs_of_nonneg nonneg] at least
  apply rational_injective
  rw [rational_zero]
  exact le_antisymm (by linarith) (rational_nonneg _)

/-- Rounding a signed number is rounding its size, under the sign. -/
theorem rounds_iff_isNearest {size : ℚ} (nonneg : 0 ≤ size) {x : Double} {negative : Bool}
    (sign : x.isNegative = negative) :
    Rounds (if negative then -size else size) x ↔ IsNearest size x.magnitude := by
  constructor
  · intro rounds
    -- every magnitude is that of a double with the same sign
    have twin {other : Nat} (inside : other ≤ infinity) : ∃ y : Double, y.isNaN = false ∧
        y.isNegative = negative ∧ y.magnitude = other := by
      have small : other < signBit := Nat.lt_of_le_of_lt inside (by decide)
      refine ⟨ofMagnitude negative other, isNaN_eq_false_iff.mpr ?_,
        isNegative_ofMagnitude negative small, magnitude_ofMagnitude negative small⟩
      rwa [magnitude_ofMagnitude negative small]
    refine ⟨isNaN_eq_false_iff.mp rounds.isNumber, ?_, ?_⟩
    · intro other inside
      obtain ⟨y, isNumber, same, rfl⟩ := twin inside
      rw [← distance_of_sign sign, ← distance_of_sign same]
      exact rounds.least y isNumber
    · intro other inside different equal
      obtain ⟨y, isNumber, same, rfl⟩ := twin inside
      rw [← distance_of_sign sign, ← distance_of_sign same] at equal
      refine rounds.even y isNumber ?_ equal
      intro values
      exact different (magnitude_of_value (same.trans sign.symm) values)
  · intro nearest
    refine ⟨isNaN_eq_false_iff.mpr nearest.bounded, ?_, ?_⟩
    · intro y isNumber
      have least := nearest.least y.magnitude (isNaN_eq_false_iff.mp isNumber)
      rw [distance_of_sign sign]
      by_cases same : y.isNegative = negative
      · rwa [distance_of_sign same]
      · rw [distance_of_other_sign nonneg same]
        exact least.trans (abs_sub_le_add nonneg (rational_nonneg _))
    · intro y isNumber different equal
      have inside := isNaN_eq_false_iff.mp isNumber
      rw [distance_of_sign sign] at equal
      by_cases same : y.isNegative = negative
      · rw [distance_of_sign same] at equal
        refine nearest.even y.magnitude inside ?_ equal
        intro magnitudes
        exact different (by rw [value, value, same, sign, magnitudes])
      · rw [distance_of_other_sign nonneg same] at equal
        have least := nearest.least y.magnitude inside
        have triangle := abs_sub_le_add nonneg (rational_nonneg y.magnitude)
        by_cases magnitudes : y.magnitude = x.magnitude
        · -- then the number or the double is zero, and so are both
          rw [nearest.eq_zero_of_distance nonneg (by rw [equal, magnitudes])]
        · exact nearest.even y.magnitude inside magnitudes (by linarith)

/-- A double that is near enough to a number to be what it is rounded to, and has its sign, is the
only one. -/
theorem Rounds.unique {size : ℚ} (nonneg : 0 ≤ size) {x y : Double} {negative : Bool}
    (first : Rounds (if negative then -size else size) x) (sign : x.isNegative = negative)
    (second : Rounds (if negative then -size else size) y) (sign' : y.isNegative = negative) :
    x = y :=
  eq_of_magnitude (sign.trans sign'.symm)
    (((rounds_iff_isNearest nonneg sign).mp first).unique
      ((rounds_iff_isNearest nonneg sign').mp second))

theorem numeral_of_finite {x : Double} (finite : x.isFinite = true) :
    x.numeral = signText x.isNegative ++ unsignedNumeral x.magnitude := by
  have below : x.magnitude < infinity := of_decide_eq_true finite
  have number : x.isNaN = false := decide_eq_false (Nat.lt_asymm below)
  simp [numeral, number, finite, signText]

theorem exists_numeral {x : Double} (finite : x.isFinite = true) :
    ∃ numeral : Numeral, numeral.text = x.numeral ∧ numeral.negative = x.isNegative ∧
      IsNearest numeral.size x.magnitude := by
  obtain ⟨_, ⟨before, after, scale, written, some, digits, same⟩, magnitude⟩ :=
    unsignedNumeral_shows (of_decide_eq_true finite)
  have whole : ∀ c ∈ before, c.isDigit = true := fun c member =>
    digits c (List.mem_append_left _ member)
  have fraction : ∀ c ∈ after, c.isDigit = true := fun c member =>
    digits c (List.mem_append_right _ member)
  refine ⟨⟨x.isNegative, ⟨before, some, whole⟩, Numeral.fractionOf after fraction,
    Numeral.exponentOf scale⟩, ?_, rfl, ?_⟩
  · rw [numeral_of_finite finite, written, numeralText, Numeral.text,
      Numeral.fractionText_fractionOf, Numeral.exponentText_exponentOf]
  · rw [Numeral.size_eq_decimal fraction rfl rfl, ← magnitude, ← same]
    exact Decimal.isNearest_magnitude _

theorem unsignedNumeral_of_whole {magnitude n : Nat} (whole : rational magnitude = n)
    (small : n < wholeLimit) : unsignedNumeral magnitude = Nat.toDigits 10 n := by
  have positive : 0 < one := by exact_mod_cast one_pos
  have multiple : units magnitude = n * one := by
    rw [rational, div_eq_iff one_pos.ne'] at whole
    exact_mod_cast whole
  rw [unsignedNumeral, multiple]
  simp only [Nat.mul_mod_left, Nat.mul_div_cancel _ positive, true_and]
  exact if_pos (Nat.mul_lt_mul_of_pos_right small positive)

theorem numeral_of_whole {x : Double} (finite : x.isFinite = true) {n : ℤ} (nonzero : n ≠ 0)
    (whole : x.value = n) (small : n.natAbs < wholeLimit) :
    x.numeral = (toString n).toList := by
  have nonneg := rational_nonneg x.magnitude
  rw [numeral_of_finite finite, Int.toString_eq_repr, Int.repr_eq_if]
  rw [value] at whole
  cases sign : x.isNegative with
  | false =>
      rw [sign, if_neg Bool.false_ne_true] at whole
      have positive : 0 ≤ n := by exact_mod_cast whole ▸ nonneg
      obtain ⟨size, rfl⟩ := Int.eq_ofNat_of_zero_le positive
      rw [unsignedNumeral_of_whole (by exact_mod_cast whole) small, if_pos positive]
      simp [signText, Nat.toList_repr]
  | true =>
      rw [sign, if_pos rfl, neg_eq_iff_eq_neg] at whole
      have negative : 0 ≤ -n := by exact_mod_cast whole ▸ nonneg
      obtain ⟨size, opposite⟩ := Int.eq_ofNat_of_zero_le negative
      have same : n.natAbs = size := by omega
      rw [unsignedNumeral_of_whole (n := size) ?_ (same ▸ small), if_neg (by omega), opposite]
      · simp [signText, Nat.toList_repr]
      · rw [whole]
        exact_mod_cast opposite

end Double

/-- The numeral of a finite double is in the form of decimal numerals, with the sign of the double.
Among the doubles of that sign, the double is the one that the number of the numeral is rounded to.
Whole numbers other than zero are in their usual notation, below 10^15. -/
theorem numeral_rounds_back (x : Double) (finite : x.isFinite = true) :
    (∃ numeral : Numeral, numeral.text = x.numeral) ∧
      (∀ numeral : Numeral, numeral.text = x.numeral → numeral.negative = x.isNegative ∧
        ∀ y : Double, Double.Rounds numeral.value y ∧ y.isNegative = numeral.negative ↔ y = x) ∧
      ∀ n : ℤ, n ≠ 0 → n.natAbs < 1000000000000000 → x.value = n →
        x.numeral = (toString n).toList := by
  obtain ⟨numeral, written, sign, nearest⟩ := Double.exists_numeral finite
  refine ⟨⟨numeral, written⟩, ?_, fun n nonzero small whole =>
    Double.numeral_of_whole finite nonzero whole small⟩
  intro other same
  obtain rfl := Numeral.text_injective (same.trans written.symm)
  have nonneg := other.size_nonneg
  have rounds : Double.Rounds other.value x :=
    (Double.rounds_iff_isNearest nonneg sign.symm).mpr nearest
  refine ⟨sign, fun y => ⟨?_, ?_⟩⟩
  · rintro ⟨rounds', sign'⟩
    exact Double.Rounds.unique nonneg rounds' sign' rounds sign.symm
  · rintro rfl
    exact ⟨rounds, sign.symm⟩

theorem numeral_rounds_back_negative :
    (∀ y : Double, Double.Rounds (Numeral.value ⟨true, Digits.ofNat 0, none, none⟩) y ∧
        y.isNegative = true ↔ y = ⟨0x8000000000000000⟩) ∧
      Double.numeral ⟨0xc01c000000000000⟩ = (toString (-7 : ℤ)).toList := by
  have zero := numeral_rounds_back ⟨0x8000000000000000⟩ (by decide)
  have seven := numeral_rounds_back ⟨0xc01c000000000000⟩ (by decide)
  refine ⟨(zero.2.1 ⟨true, Digits.ofNat 0, none, none⟩ (by decide +kernel)).2,
    seven.2.2 (-7) (by decide) (by decide) ?_⟩
  have units : Double.units (Double.magnitude ⟨0xc01c000000000000⟩) = 7 * Double.one := by
    decide +kernel
  rw [Double.value, if_pos (by decide), Double.rational, units, Nat.cast_mul,
    mul_div_cancel_right₀ _ Double.one_pos.ne']
  norm_num

end Freshen
