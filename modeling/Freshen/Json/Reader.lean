import Freshen.Json.Basic
import Freshen.Number.Decimal

/-!
Reading JSON text, strictly: no comments, no trailing commas, no text after the value. Each reader
takes characters from the front and returns what follows; `none` is a fault in the text. Decimals
are read as the double nearest to them.
-/

namespace Freshen.Json

namespace Reader

def isBlank (c : Char) : Bool := c == ' ' || c == '\t' || c == '\n' || c == '\r'

def skipBlank (text : List Char) : List Char := text.dropWhile isBlank

def hexDigit? (c : Char) : Option Nat :=
  if '0' ≤ c ∧ c ≤ '9' then some (c.toNat - '0'.toNat)
  else if 'a' ≤ c ∧ c ≤ 'f' then some (c.toNat - 'a'.toNat + 10)
  else if 'A' ≤ c ∧ c ≤ 'F' then some (c.toNat - 'A'.toNat + 10)
  else none

def unit? (a b c d : Char) : Option Nat := do
  return ((← hexDigit? a) * 16 + (← hexDigit? b)) * 256 + (← hexDigit? c) * 16 + (← hexDigit? d)

def isHighSurrogate (unit : Nat) : Bool := 0xd800 ≤ unit && unit < 0xdc00

def isLowSurrogate (unit : Nat) : Bool := 0xdc00 ≤ unit && unit < 0xe000

def simpleEscape? (c : Char) : Option Char :=
  match c with
  | '"' => some '"'
  | '\\' => some '\\'
  | '/' => some '/'
  | 'b' => some '\x08'
  | 'f' => some '\x0c'
  | 'n' => some '\n'
  | 'r' => some '\r'
  | 't' => some '\t'
  | _ => none

/-- The content of a string up to its closing quote. Surrogates come in pairs. -/
def string? : List Char → Option (List Char × List Char)
  | [] => none
  | '"' :: rest => some ([], rest)
  | '\\' :: 'u' :: a :: b :: c :: d :: rest => do
    let unit ← unit? a b c d
    if isLowSurrogate unit then none
    else if isHighSurrogate unit then
      match rest with
      | '\\' :: 'u' :: e :: f :: g :: h :: rest => do
        let low ← unit? e f g h
        if isLowSurrogate low then
          let (content, rest) ← string? rest
          return (Char.ofNat (0x10000 + (unit - 0xd800) * 0x400 + (low - 0xdc00)) :: content, rest)
        else none
      | _ => none
    else
      let (content, rest) ← string? rest
      return (Char.ofNat unit :: content, rest)
  | '\\' :: c :: rest => do
    let escaped ← simpleEscape? c
    let (content, rest) ← string? rest
    return (escaped :: content, rest)
  | c :: rest =>
    if c.toNat < 0x20 then none
    else do
      let (content, rest) ← string? rest
      return (c :: content, rest)

def digitsValue (digits : List Char) : Nat :=
  digits.foldl (fun value c => value * 10 + (c.toNat - '0'.toNat)) 0

def digits? (text : List Char) : Option (List Char × List Char) :=
  match text.takeWhile Char.isDigit with
  | [] => none
  | digits => some (digits, text.dropWhile Char.isDigit)

/-- The digits before the point, which have no needless zero in front. -/
def wholeDigits? (text : List Char) : Option (List Char × List Char) := do
  let (digits, rest) ← digits? text
  if digits.head? = some '0' ∧ digits.length ≠ 1 then none
  else return (digits, rest)

def fraction? (text : List Char) : Option (List Char × List Char) :=
  match text with
  | '.' :: rest => digits? rest
  | rest => some ([], rest)

def unsignedExponent? (text : List Char) : Option (Nat × List Char) := do
  let (digits, rest) ← digits? text
  return (digitsValue digits, rest)

def exponent? (text : List Char) : Option (Int × List Char) :=
  match text with
  | '+' :: rest => (unsignedExponent? rest).map fun (value, rest) => (Int.ofNat value, rest)
  | '-' :: rest => (unsignedExponent? rest).map fun (value, rest) => (-Int.ofNat value, rest)
  | rest => (unsignedExponent? rest).map fun (value, rest) => (Int.ofNat value, rest)

def scale? (text : List Char) : Option (Option Int × List Char) :=
  match text with
  | 'e' :: rest | 'E' :: rest => (exponent? rest).map fun (value, rest) => (some value, rest)
  | rest => some (none, rest)

/-- A number without point and exponent stays whole if it fits 64 bits. A double too large to be
finite is a fault. -/
def numberValue? (negative : Bool) (before after : List Char) (scale : Option Int) :
    Option Json :=
  let value := digitsValue before
  let limit := if negative then 0x8000000000000000 else 0xffffffffffffffff
  if after = [] ∧ scale = none ∧ value ≤ limit ∧ ¬ (negative ∧ value = 0) then
    some (.whole (if negative then -value else value))
  else
    let decimal : Decimal := ⟨digitsValue (before ++ after), scale.getD 0 - after.length⟩
    let double := Double.ofMagnitude negative decimal.magnitude
    if double.isFinite then some (.double double) else none

def unsignedNumber? (negative : Bool) (text : List Char) : Option (Json × List Char) := do
  let (before, rest) ← wholeDigits? text
  let (after, rest) ← fraction? rest
  let (scale, rest) ← scale? rest
  return (← numberValue? negative before after scale, rest)

def number? (text : List Char) : Option (Json × List Char) :=
  match text with
  | '-' :: rest => unsignedNumber? true rest
  | rest => unsignedNumber? false rest

mutual

/-- A value. Every call takes a character or is followed by one that does, so twice the length of
the text is fuel enough; arrays and objects may nest `depth` levels. -/
def value? (fuel depth : Nat) (text : List Char) : Option (Json × List Char) :=
  match fuel with
  | 0 => none
  | fuel + 1 =>
    match skipBlank text with
    | 'n' :: 'u' :: 'l' :: 'l' :: rest => some (.null, rest)
    | 't' :: 'r' :: 'u' :: 'e' :: rest => some (.bool true, rest)
    | 'f' :: 'a' :: 'l' :: 's' :: 'e' :: rest => some (.bool false, rest)
    | '"' :: rest =>
      (string? rest).map fun (content, rest) => (.string (String.ofList content), rest)
    | '[' :: rest =>
      match depth, skipBlank rest with
      | 0, _ => none
      | _ + 1, ']' :: rest => some (.array [], rest)
      | depth + 1, rest => (items? fuel depth rest).map fun (items, rest) => (.array items, rest)
    | '\x7b' :: rest =>
      match depth, skipBlank rest with
      | 0, _ => none
      | _ + 1, '\x7d' :: rest => some (.object [], rest)
      | depth + 1, rest =>
        (members? fuel depth rest).map fun (members, rest) => (.object members, rest)
    | rest => number? rest

def items? (fuel depth : Nat) (text : List Char) : Option (List Json × List Char) :=
  match fuel with
  | 0 => none
  | fuel + 1 => do
    let (item, rest) ← value? fuel depth text
    match skipBlank rest with
    | ']' :: rest => return ([item], rest)
    | ',' :: rest =>
      let (items, rest) ← items? fuel depth rest
      return (item :: items, rest)
    | _ => none

def members? (fuel depth : Nat) (text : List Char) :
    Option (List (String × Json) × List Char) :=
  match fuel with
  | 0 => none
  | fuel + 1 =>
    match skipBlank text with
    | '"' :: rest => do
      let (name, rest) ← string? rest
      match skipBlank rest with
      | ':' :: rest =>
        let (value, rest) ← value? fuel depth rest
        match skipBlank rest with
        | '\x7d' :: rest => return ([(String.ofList name, value)], rest)
        | ',' :: rest =>
          let (members, rest) ← members? fuel depth rest
          return ((String.ofList name, value) :: members, rest)
        | _ => none
      | _ => none
    | _ => none

end

end Reader

def maxDepth : Nat := 127

def parseWithin? (depth : Nat) (text : String) : Option Json := do
  let chars := text.toList
  let (value, rest) ← Reader.value? (2 * chars.length + 2) depth chars
  if (Reader.skipBlank rest).isEmpty then return value else none

def parse? (text : String) : Option Json := parseWithin? maxDepth text

end Freshen.Json
