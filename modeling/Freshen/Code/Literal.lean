/-! How string literals are written. -/

namespace Freshen

/-- Characters of the two control blocks, U+0000 to U+001F and U+007F to U+009F. -/
def isControl (c : Char) : Bool := c.toNat < 0x20 || (0x7f ≤ c.toNat && c.toNat < 0xa0)

def hexDigits (width n : Nat) : List Char :=
  let digits := Nat.toDigits 16 n
  List.replicate (width - digits.length) '0' ++ digits

/-- One character inside double quotes. Control characters and line separators are escaped. -/
def escapeChar (c : Char) : List Char :=
  match c with
  | '\\' => ['\\', '\\']
  | '"' => ['\\', '"']
  | '\n' => ['\\', 'n']
  | '\r' => ['\\', 'r']
  | '\t' => ['\\', 't']
  | '\u2028' => "\\u2028".toList
  | '\u2029' => "\\u2029".toList
  | c => if isControl c then '\\' :: 'u' :: hexDigits 4 c.toNat else [c]

def escape (text : List Char) : List Char := text.flatMap escapeChar

def stringLiteral (value : String) : String :=
  "\"" ++ String.ofList (escape value.toList) ++ "\""

end Freshen
