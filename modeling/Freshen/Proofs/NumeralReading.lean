import Freshen.Json.Reader
import Freshen.Number.Numeral
import Freshen.Proofs.Rounding

/-!
Numerals read back. Digits, a point and an exponent are read as in a number of JSON; the double
nearest to what they mean is the one that was written.
-/

namespace Freshen

def Stops (kind : Char → Bool) (text : List Char) : Prop :=
  ∀ c, text.head? = some c → kind c = false

theorem Stops.cons {kind : Char → Bool} {c : Char} (other : kind c = false) (rest : List Char) :
    Stops kind (c :: rest) := by
  intro first same
  cases same
  exact other

theorem Stops.imp {kind wider : Char → Bool} {text : List Char} (stops : Stops wider text)
    (narrow : ∀ c, wider c = false → kind c = false) : Stops kind text :=
  fun c same => narrow c (stops c same)

theorem takeWhile_append_stop {kind : Char → Bool} {front rest : List Char}
    (all : ∀ c ∈ front, kind c = true) (stops : Stops kind rest) :
    (front ++ rest).takeWhile kind = front := by
  rw [List.takeWhile_append_of_pos all]
  cases rest with
  | nil => simp
  | cons c rest => simp [stops c rfl]

theorem dropWhile_append_stop {kind : Char → Bool} {front rest : List Char}
    (all : ∀ c ∈ front, kind c = true) (stops : Stops kind rest) :
    (front ++ rest).dropWhile kind = rest := by
  rw [List.dropWhile_append_of_pos all]
  cases rest with
  | nil => rfl
  | cons c rest => simp [stops c rfl]

def Decimal.read? (text : List Char) : Option (Decimal × List Char) := do
  let (before, rest) ← Json.Reader.digits? text
  let (after, rest) ← Json.Reader.fraction? rest
  let (scale, rest) ← Json.Reader.scale? rest
  return (⟨Json.Reader.digitsValue (before ++ after), scale.getD 0 - after.length⟩, rest)

def Double.read? (text : List Char) : Option (Double × List Char) :=
  (Decimal.read? text).map fun (decimal, rest) => (.ofMagnitude false decimal.magnitude, rest)

def isNumeralChar (c : Char) : Bool := c.isDigit || c == '.' || c == 'e' || c == 'E'

namespace Json.Reader

theorem digitsValue_eq (digits : List Char) :
    digitsValue digits = Nat.ofDigitChars 10 digits 0 := by
  simp only [digitsValue, Nat.ofDigitChars_eq_foldl, Nat.mul_comm]

theorem isDigit_of_toDigits_append {n : Nat} {rest tail : List Char} {c : Char}
    (same : Nat.toDigits 10 n ++ rest = c :: tail) : c.isDigit = true := by
  apply Nat.isDigit_of_mem_toDigits (b := 10) (n := n) (by decide) (by decide)
  cases digits : Nat.toDigits 10 n with
  | nil => exact absurd digits Nat.toDigits_ne_nil
  | cons first more =>
      rw [digits] at same
      cases same
      exact List.mem_cons_self

theorem digits?_append {digits rest : List Char} (some : digits ≠ [])
    (all : ∀ c ∈ digits, c.isDigit = true) (stops : Stops Char.isDigit rest) :
    digits? (digits ++ rest) = .some (digits, rest) := by
  rw [digits?, takeWhile_append_stop all stops, dropWhile_append_stop all stops]
  cases digits with
  | nil => exact absurd rfl some
  | cons c digits => rfl

theorem fraction?_stop {rest : List Char} (stops : Stops isNumeralChar rest) :
    fraction? rest = some ([], rest) := by
  rw [fraction?]
  rintro tail rfl
  exact absurd (stops '.' rfl) (by decide)

theorem scale?_stop {rest : List Char} (stops : Stops isNumeralChar rest) :
    scale? rest = some (none, rest) := by
  rw [scale?]
  · rintro tail rfl
    exact absurd (stops 'e' rfl) (by decide)
  · rintro tail rfl
    exact absurd (stops 'E' rfl) (by decide)

theorem isDigit_of_stop {rest : List Char} (stops : Stops isNumeralChar rest) :
    Stops Char.isDigit rest :=
  stops.imp fun c other => by
    simp only [isNumeralChar, Bool.or_eq_false_iff] at other
    exact other.1.1.1

theorem unsignedExponent?_toDigits (n : Nat) {rest : List Char} (stops : Stops Char.isDigit rest) :
    unsignedExponent? (Nat.toDigits 10 n ++ rest) = some (n, rest) := by
  have digits : ∀ c ∈ Nat.toDigits 10 n, c.isDigit = true :=
    fun _ => Nat.isDigit_of_mem_toDigits (by decide) (by decide)
  rw [unsignedExponent?, digits?_append Nat.toDigits_ne_nil digits stops]
  simp [digitsValue_eq]

theorem exponent?_toString (exponent : Int) {rest : List Char} (stops : Stops Char.isDigit rest) :
    exponent? ((toString exponent).toList ++ rest) = some (exponent, rest) := by
  have unsigned (n : Nat) := unsignedExponent?_toDigits n stops
  rw [Int.toString_eq_repr, Int.repr_eq_if]
  split
  · rename_i positive
    rw [Nat.toList_repr, exponent?, unsigned]
    · simp [Int.toNat_of_nonneg positive]
    · exact fun tail same => absurd (isDigit_of_toDigits_append same) (by decide)
    · exact fun tail same => absurd (isDigit_of_toDigits_append same) (by decide)
  · rename_i negative
    have digits : ("-" ++ (-exponent).toNat.repr).toList ++ rest =
        '-' :: (Nat.toDigits 10 (-exponent).toNat ++ rest) := by
      simp [Nat.toList_repr]
    rw [digits, exponent?, unsigned]
    simp
    omega

end Json.Reader

def scaleText : Option Int → List Char
  | none => []
  | some exponent => 'e' :: (toString exponent).toList

/-- Digits, a point before further digits, and an exponent. -/
def numeralText (before after : List Char) (scale : Option Int) : List Char :=
  before ++ ((if after = [] then [] else '.' :: after) ++ scaleText scale)

namespace Decimal

open Json.Reader

theorem scale?_scaleText (scale : Option Int) {rest : List Char}
    (stops : Stops isNumeralChar rest) : scale? (scaleText scale ++ rest) = some (scale, rest) := by
  cases scale with
  | none => exact scale?_stop stops
  | some exponent =>
      rw [scaleText, List.cons_append, scale?, exponent?_toString exponent (isDigit_of_stop stops)]
      rfl

theorem fraction?_scaleText (scale : Option Int) {rest : List Char}
    (stops : Stops isNumeralChar rest) :
    fraction? (scaleText scale ++ rest) = some ([], scaleText scale ++ rest) := by
  cases scale with
  | none => exact fraction?_stop stops
  | some exponent => rfl

theorem stops_scaleText (scale : Option Int) {rest : List Char}
    (stops : Stops isNumeralChar rest) : Stops Char.isDigit (scaleText scale ++ rest) := by
  cases scale with
  | none => exact isDigit_of_stop stops
  | some exponent => exact Stops.cons rfl _

theorem read?_numeralText {before after rest : List Char} (scale : Option Int)
    (some : before ≠ []) (digits : ∀ c ∈ before, c.isDigit = true)
    (digits' : ∀ c ∈ after, c.isDigit = true) (stops : Stops isNumeralChar rest) :
    read? (numeralText before after scale ++ rest) =
      .some (⟨Nat.ofDigitChars 10 (before ++ after) 0, scale.getD 0 - after.length⟩, rest) := by
  rw [read?, numeralText, List.append_assoc, List.append_assoc]
  have ends := stops_scaleText scale stops
  by_cases none : after = []
  · rw [if_pos none, List.nil_append, digits?_append some digits ends]
    simp [fraction?_scaleText scale stops, scale?_scaleText scale stops, digitsValue_eq, none]
  · have fraction : fraction? ('.' :: (after ++ (scaleText scale ++ rest))) =
        .some (after, scaleText scale ++ rest) := digits?_append none digits' ends
    rw [if_neg none, List.cons_append, digits?_append some digits (Stops.cons rfl _)]
    simp [fraction, scale?_scaleText scale stops, digitsValue_eq]

/-- The text is a numeral, and the decimal of its digits has the magnitude of the given one. -/
def Shows (text : List Char) (d : Decimal) : Prop :=
  ∃ before after scale, text = numeralText before after scale ∧ before ≠ [] ∧
    (∀ c ∈ before ++ after, c.isDigit = true) ∧
    magnitude ⟨Nat.ofDigitChars 10 (before ++ after) 0, scale.getD 0 - after.length⟩ = d.magnitude

theorem Shows.reads_back {text rest : List Char} {d : Decimal} (shows : Shows text d)
    (stops : Stops isNumeralChar rest) :
    ∃ other, read? (text ++ rest) = some (other, rest) ∧ other.magnitude = d.magnitude := by
  obtain ⟨before, after, scale, rfl, some, digits, same⟩ := shows
  refine ⟨_, read?_numeralText scale some ?_ ?_ stops, same⟩
  · exact fun c member => digits c (List.mem_append_left _ member)
  · exact fun c member => digits c (List.mem_append_right _ member)

theorem Shows.opens {text : List Char} {d : Decimal} (shows : Shows text d) :
    ∃ c more, text = c :: more ∧ c.isDigit = true := by
  obtain ⟨before, after, scale, rfl, some, digits, -⟩ := shows
  cases before with
  | nil => exact absurd rfl some
  | cons c before => exact ⟨c, _, rfl, digits c List.mem_cons_self⟩

theorem toDigits_shows (n : Nat) : Shows (Nat.toDigits 10 n) ⟨n, 0⟩ := by
  refine ⟨Nat.toDigits 10 n, [], none, ?_, Nat.toDigits_ne_nil, ?_, ?_⟩
  · simp [numeralText, scaleText]
  · simpa using fun _ => Nat.isDigit_of_mem_toDigits (by decide) (by decide)
  · simp

theorem isDigit_replicate {count : Nat} : ∀ c ∈ List.replicate count '0', c.isDigit = true := by
  intro c member
  rw [(List.mem_replicate.mp member).2]
  rfl

theorem positional_shows (d : Decimal) : Shows d.positional d := by
  have digits : ∀ c ∈ Nat.toDigits 10 d.digits, c.isDigit = true :=
    fun _ => Nat.isDigit_of_mem_toDigits (by decide) (by decide)
  have value := Nat.ofDigitChars_ten_toDigits (n := d.digits)
  have some := Nat.length_toDigits_pos (b := 10) (n := d.digits)
  rw [positional]
  generalize Nat.toDigits 10 d.digits = written at digits value some
  by_cases whole : 0 ≤ d.exponent
  · -- zeros up to the point
    refine ⟨written ++ List.replicate d.exponent.toNat '0', [], none, ?_, ?_, ?_, ?_⟩
    · simp [numeralText, scaleText, whole]
    · exact List.append_ne_nil_of_left_ne_nil (List.ne_nil_of_length_pos some) _
    · intro c member
      rw [List.append_nil] at member
      rcases List.mem_append.mp member with member | member
      · exact digits c member
      · exact isDigit_replicate c member
    · rw [List.append_nil, Nat.ofDigitChars_append, value, Nat.ofDigitChars_replicate_zero,
        Nat.mul_comm]
      have scaled := magnitude_scale d.digits d.exponent.toNat 0
      simpa [Int.toNat_of_nonneg whole] using scaled
  · by_cases inside : 0 < written.length + d.exponent
    · -- the point stands between two digits
      generalize place : (written.length + d.exponent).toNat = point
      refine ⟨written.take point, written.drop point, none, ?_, ?_, ?_, ?_⟩
      · have more : written.drop point ≠ [] := by
          simp
          omega
        simp [numeralText, scaleText, whole, inside, more]
      · apply List.ne_nil_of_length_pos
        rw [List.length_take]
        omega
      · rw [List.take_append_drop]
        exact digits
      · rw [List.take_append_drop, value, List.length_drop]
        congr 2
        simp
        omega
    · -- zeros stand between the point and the digits
      refine ⟨['0'], List.replicate (-(written.length + d.exponent)).toNat '0' ++ written, none,
        ?_, List.cons_ne_nil _ _, ?_, ?_⟩
      · have more : List.replicate (-(written.length + d.exponent)).toNat '0' ++ written ≠ [] :=
          List.append_ne_nil_of_right_ne_nil _ (List.ne_nil_of_length_pos some)
        rw [if_neg whole, if_neg inside, numeralText, if_neg more, scaleText, List.append_nil]
        rfl
      · intro c member
        rw [List.singleton_append] at member
        rcases List.mem_cons.mp member with rfl | member
        · rfl
        · rcases List.mem_append.mp member with member | member
          · exact isDigit_replicate c member
          · exact digits c member
      · have zero : Nat.ofDigitChars 10 ['0'] 0 = 0 := rfl
        rw [Nat.ofDigitChars_append, Nat.ofDigitChars_append, Nat.ofDigitChars_replicate_zero, zero,
          Nat.mul_zero, value]
        congr 2
        simp
        omega

theorem scientific_shows (d : Decimal) : Shows d.scientific d := by
  have digits : ∀ c ∈ Nat.toDigits 10 d.digits, c.isDigit = true :=
    fun _ => Nat.isDigit_of_mem_toDigits (by decide) (by decide)
  have value := Nat.ofDigitChars_ten_toDigits (n := d.digits)
  have some := Nat.length_toDigits_pos (b := 10) (n := d.digits)
  rw [scientific]
  generalize Nat.toDigits 10 d.digits = written at digits value some
  refine ⟨written.take 1, written.drop 1, .some (written.length - 1 + d.exponent), ?_, ?_, ?_, ?_⟩
  · have only : written.length ≤ 1 ↔ written.drop 1 = [] := List.drop_eq_nil_iff.symm
    simp only [numeralText, scaleText, only, List.append_assoc]
  · apply List.ne_nil_of_length_pos
    rw [List.length_take]
    omega
  · rw [List.take_append_drop]
    exact digits
  · rw [List.take_append_drop, value, List.length_drop]
    congr 2
    simp
    omega

end Decimal

theorem Double.whole_reads_back {magnitude : Nat} (finite : magnitude < infinity)
    (whole : units magnitude % one = 0 ∧ units magnitude < wholeLimit * one) :
    Decimal.magnitude ⟨units magnitude / one, 0⟩ = magnitude := by
  have multiple : units magnitude / one * one = units magnitude :=
    Nat.div_mul_cancel (Nat.dvd_of_mod_eq_zero whole.1)
  by_cases zero : magnitude = 0
  · subst zero
    decide +kernel
  · have positive : units magnitude / one ≠ 0 := by
      intro none
      have some := Decimal.units_pos (Nat.pos_of_ne_zero zero)
      rw [none] at multiple
      omega
    have few : Decimal.digitCount (units magnitude / one) ≤ 15 := by
      have limit : wholeLimit = Nat.pow 10 15 := by decide
      rw [Decimal.digitCount_le_iff (by decide), ← limit]
      apply Nat.div_lt_of_lt_mul
      rw [Nat.mul_comm]
      exact whole.2
    apply Decimal.magnitude_of_units finite positive
    · simp only
      omega
    · simp only
      omega
    · simp [Decimal.quotient, multiple]

/-- The numeral of a finite magnitude means that magnitude. -/
theorem Double.unsignedNumeral_shows {magnitude : Nat} (finite : magnitude < infinity) :
    ∃ d : Decimal, Decimal.Shows (unsignedNumeral magnitude) d ∧ d.magnitude = magnitude := by
  rw [unsignedNumeral]
  dsimp only
  split
  · rename_i whole
    exact ⟨⟨units magnitude / one, 0⟩, Decimal.toDigits_shows _, whole_reads_back finite whole⟩
  · rename_i broken
    have positive : 0 < magnitude := by
      apply Nat.pos_of_ne_zero
      rintro rfl
      exact broken (by decide +kernel)
    refine ⟨Decimal.shortest magnitude, ?_, Decimal.shortest_reads_back positive finite⟩
    split
    · exact Decimal.scientific_shows _
    · exact Decimal.positional_shows _

theorem Double.numeral_shows {value : Double} (finite : value.isFinite = true)
    (positive : value.isNegative = false) :
    ∃ d : Decimal, Decimal.Shows value.numeral d ∧ d.magnitude = value.magnitude := by
  have below : value.magnitude < infinity := of_decide_eq_true finite
  have number : value.isNaN = false := decide_eq_false (Nat.lt_asymm below)
  have text : value.numeral = unsignedNumeral value.magnitude := by
    simp [numeral, number, finite, positive]
  rw [text]
  exact unsignedNumeral_shows below

theorem Double.read?_numeral {value : Double} {rest : List Char} (finite : value.isFinite = true)
    (positive : value.isNegative = false) (stops : Stops isNumeralChar rest) :
    Double.read? (value.numeral ++ rest) = some (value, rest) := by
  obtain ⟨d, shows, magnitude⟩ := numeral_shows finite positive
  obtain ⟨other, read, same⟩ := shows.reads_back stops
  have bits : value.magnitude = value.bits.toNat :=
    Nat.mod_eq_of_lt (Nat.not_le.mp (of_decide_eq_false positive))
  rw [Double.read?, read]
  simp [same, magnitude, ofMagnitude, bits]

theorem Double.numeral_opens {value : Double} (finite : value.isFinite = true)
    (positive : value.isNegative = false) :
    ∃ c more, value.numeral = c :: more ∧ c.isDigit = true := by
  obtain ⟨d, shows, -⟩ := numeral_shows finite positive
  exact shows.opens

end Freshen
