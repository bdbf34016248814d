/-!
Doubles by their bit patterns. Every finite magnitude is a whole number of units of 2^-1074, the
least positive double, so reading and rounding are exact arithmetic on natural numbers.
-/

namespace Freshen

/-- An IEEE 754 binary64 number, given by its bit pattern. -/
structure Double where
  bits : UInt64
deriving DecidableEq, Repr, Inhabited

namespace Double

def signBit : Nat := 0x8000000000000000

def binade : Nat := 0x10000000000000

/-- The pattern of positive infinity; larger magnitudes are not numbers. -/
def infinity : Nat := 0x7ff0000000000000

def isNegative (x : Double) : Bool := signBit ≤ x.bits.toNat

def magnitude (x : Double) : Nat := x.bits.toNat % signBit

def isNaN (x : Double) : Bool := infinity < x.magnitude

def isFinite (x : Double) : Bool := x.magnitude < infinity

def ofMagnitude (negative : Bool) (magnitude : Nat) : Double :=
  ⟨UInt64.ofNat (if negative then signBit + magnitude else magnitude)⟩

def one : Nat := Nat.pow 2 1074

/-- The value of a finite magnitude in units of 2^-1074. -/
def units (magnitude : Nat) : Nat :=
  if magnitude < binade then magnitude
  else (binade + magnitude % binade) * Nat.pow 2 (magnitude / binade - 1)

/-- The whole number nearest to `num / den`; a half goes to the even neighbour. -/
def roundEven (num den : Nat) : Nat :=
  let low := num / den
  let twice := 2 * (num % den)
  if twice < den ∨ twice = den ∧ low % 2 = 0 then low else low + 1

/-- The magnitude nearest to `num / den`; a half goes to the even pattern, and what is too large
goes to infinity. -/
def nearest (num den : Nat) : Nat :=
  let shift := (num * one / den).log2 - 52
  min infinity (shift * binade + roundEven (num * one) (den * Nat.pow 2 shift))

def ofInt (n : Int) : Double := ofMagnitude (n < 0) (nearest n.natAbs 1)

end Double

end Freshen
