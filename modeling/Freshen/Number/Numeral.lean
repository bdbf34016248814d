import Freshen.Number.Decimal

/-! How number literals are written. -/

namespace Freshen

namespace Decimal

def positional (d : Decimal) : List Char :=
  let digits := Nat.toDigits 10 d.digits
  let point := digits.length + d.exponent
  if 0 ≤ d.exponent then digits ++ List.replicate d.exponent.toNat '0'
  else if 0 < point then digits.take point.toNat ++ '.' :: digits.drop point.toNat
  else '0' :: '.' :: (List.replicate (-point).toNat '0' ++ digits)

def scientific (d : Decimal) : List Char :=
  let digits := Nat.toDigits 10 d.digits
  let exponent := digits.length - 1 + d.exponent
  digits.take 1 ++ (if digits.length ≤ 1 then [] else '.' :: digits.drop 1) ++
    'e' :: (toString exponent).toList

end Decimal

namespace Double

def wholeLimit : Nat := 1000000000000000

/-- The numeral of a finite magnitude: whole numbers below the limit in full, all others with the
fewest digits that read back, with an exponent where that is shorter. -/
def unsignedNumeral (magnitude : Nat) : List Char :=
  let units := units magnitude
  if units % one = 0 ∧ units < wholeLimit * one then Nat.toDigits 10 (units / one)
  else
    let decimal := Decimal.shortest magnitude
    if decimal.scientific.length < decimal.positional.length then decimal.scientific
    else decimal.positional

def numeral (x : Double) : List Char :=
  let sign := if x.isNegative then ['-'] else []
  if x.isNaN then "NaN".toList
  else if x.isFinite then sign ++ unsignedNumeral x.magnitude
  else sign ++ "Infinity".toList

end Double

end Freshen
