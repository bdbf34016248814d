import Freshen.Code.Literal
import Freshen.Json.Basic
import Freshen.Number.Numeral

/-! JSON values as text over several lines, two spaces to a level. -/

namespace Freshen.Json

def escapedChar (c : Char) : List Char :=
  match c with
  | '"' => ['\\', '"']
  | '\\' => ['\\', '\\']
  | '\n' => ['\\', 'n']
  | '\r' => ['\\', 'r']
  | '\t' => ['\\', 't']
  | '\x08' => ['\\', 'b']
  | '\x0c' => ['\\', 'f']
  | c => if c.toNat < 0x20 then '\\' :: 'u' :: hexDigits 4 c.toNat else [c]

def quotedString (text : String) : String :=
  "\"" ++ String.ofList (text.toList.flatMap escapedChar) ++ "\""

def lineBreak (level : Nat) : String := "\n" ++ String.join (List.replicate level "  ")

mutual

def prettyAt (level : Nat) : Json → String
  | null => "null"
  | bool value => if value then "true" else "false"
  | whole value => toString value
  | double value => String.ofList value.numeral
  | string value => quotedString value
  | array [] => "[]"
  | array items =>
    "[" ++ prettyItems (level + 1) items ++ lineBreak level ++ "]"
  | object [] => "\x7b\x7d"
  | object members =>
    "\x7b" ++ prettyMembers (level + 1) members ++ lineBreak level ++ "\x7d"

def prettyItems (level : Nat) : List Json → String
  | [] => ""
  | [item] => lineBreak level ++ prettyAt level item
  | item :: rest => lineBreak level ++ prettyAt level item ++ "," ++ prettyItems level rest

def prettyMembers (level : Nat) : List (String × Json) → String
  | [] => ""
  | [(name, value)] => lineBreak level ++ quotedString name ++ ": " ++ prettyAt level value
  | (name, value) :: rest =>
    lineBreak level ++ quotedString name ++ ": " ++ prettyAt level value ++ "," ++
      prettyMembers level rest

end

def pretty (json : Json) : String := prettyAt 0 json

end Freshen.Json
