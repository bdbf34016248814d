import Freshen.Number.Double

/-!
Decimals and doubles: the double nearest to a decimal, and the shortest decimal that reads back as
a given double.
-/

namespace Freshen

/-- The number `digits * 10 ^ exponent`. -/
structure Decimal where
  digits : Nat
  exponent : Int
deriving DecidableEq, Repr

namespace Decimal

def digitCount (n : Nat) : Nat := (Nat.toDigits 10 n).length

def quotient (d : Decimal) : Nat × Nat :=
  if 0 ≤ d.exponent then (d.digits * Nat.pow 10 d.exponent.toNat, 1)
  else (d.digits, Nat.pow 10 (-d.exponent).toNat)

/-- The magnitude nearest to the decimal. Decimals of 10^310 and above are infinite and those
below 10^-330 are zero, so that no large power of ten is needed for them. -/
def magnitude (d : Decimal) : Nat :=
  let order := digitCount d.digits + d.exponent
  if d.digits = 0 ∨ order < -330 then 0
  else if 310 < order then Double.infinity
  else Double.nearest d.quotient.1 d.quotient.2

def leadingExponent (num den : Nat) : Int :=
  if den ≤ num then digitCount (num / den) - 1 else -(digitCount ((den - 1) / num) : Int)

/-- The two neighbours of a positive magnitude among the decimals of `count` digits; of those that
read back as it, the nearer one. A tie goes up. -/
def withDigits? (magnitude count : Nat) : Option Decimal :=
  let units := Double.units magnitude
  let exponent := leadingExponent units Double.one - (count - 1 : Nat)
  let num := if 0 ≤ exponent then units else units * Nat.pow 10 (-exponent).toNat
  let den := if 0 ≤ exponent then Double.one * Nat.pow 10 exponent.toNat else Double.one
  let low : Decimal := ⟨num / den, exponent⟩
  let high : Decimal := ⟨num / den + 1, exponent⟩
  match low.magnitude == magnitude, high.magnitude == magnitude with
  | true, true => if 2 * (num % den) < den then some low else some high
  | true, false => some low
  | false, true => some high
  | false, false => none

/-- All digits of a magnitude: it is a multiple of 5^1074 * 10^-1074. -/
def exact (magnitude : Nat) : Decimal := ⟨Double.units magnitude * Nat.pow 5 1074, -1074⟩

def trim (d : Decimal) : Decimal :=
  let zeros := ((Nat.toDigits 10 d.digits).reverse.takeWhile (· == '0')).length
  ⟨d.digits / Nat.pow 10 zeros, d.exponent + zeros⟩

/-- The decimal with the fewest digits that reads back as a positive finite magnitude. Seventeen
digits always do. -/
def shortest (magnitude : Nat) : Decimal :=
  (((List.range' 1 17).findSome? (withDigits? magnitude)).getD (exact magnitude)).trim

end Decimal

end Freshen
