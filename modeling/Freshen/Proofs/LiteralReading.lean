import Freshen.Code.Literal
import Freshen.Json.Reader
import Mathlib.Data.List.Basic

/-! String literals read back: escapes are undone one by one, up to the closing quote. -/

namespace Freshen

def unescape? (c : Char) : Option Char :=
  match c with
  | '\\' => some '\\'
  | '"' => some '"'
  | 'n' => some '\n'
  | 'r' => some '\r'
  | 't' => some '\t'
  | _ => none

/-- The content of a string literal up to its closing quote, and what follows it. -/
def quoted? : List Char → Option (List Char × List Char)
  | [] => none
  | '"' :: rest => some ([], rest)
  | '\\' :: 'u' :: a :: b :: c :: d :: rest => do
    let code ← Json.Reader.unit? a b c d
    let (content, rest) ← quoted? rest
    return (Char.ofNat code :: content, rest)
  | '\\' :: c :: rest => do
    let plain ← unescape? c
    let (content, rest) ← quoted? rest
    return (plain :: content, rest)
  | c :: rest => do
    let (content, rest) ← quoted? rest
    return (c :: content, rest)

theorem hexDigits_control : ∀ code < 0xa0, ∃ a b c d,
    hexDigits 4 code = [a, b, c, d] ∧ Json.Reader.unit? a b c d = some code := by
  have all : ∀ code < 0xa0, (hexDigits 4 code).length = 4 ∧
      Json.Reader.unit? ((hexDigits 4 code).getD 0 ' ') ((hexDigits 4 code).getD 1 ' ')
        ((hexDigits 4 code).getD 2 ' ') ((hexDigits 4 code).getD 3 ' ') = some code := by
    decide +kernel
  intro code control
  obtain ⟨length, value⟩ := all code control
  obtain ⟨a, b, c, d, digits⟩ := List.length_eq_four.mp length
  rw [digits] at value
  exact ⟨a, b, c, d, digits, value⟩

theorem quoted?_escapeChar (c : Char) (rest : List Char) :
    quoted? (escapeChar c ++ rest) =
      (quoted? rest).bind fun (content, rest) => some (c :: content, rest) := by
  unfold escapeChar
  split
  · simp [quoted?, unescape?]
  · simp [quoted?, unescape?]
  · simp [quoted?, unescape?]
  · simp [quoted?, unescape?]
  · simp [quoted?, unescape?]
  · simp [quoted?, Json.Reader.unit?, Json.Reader.hexDigit?]
  · simp [quoted?, Json.Reader.unit?, Json.Reader.hexDigit?]
  · rename_i noBackslash noQuote _ _ _ _ _
    split
    · rename_i control
      have small : c.toNat < 0xa0 := by
        simp only [isControl, Bool.or_eq_true, Bool.and_eq_true, decide_eq_true_eq] at control
        omega
      obtain ⟨first, second, third, fourth, digits, code⟩ := hexDigits_control c.toNat small
      rw [digits, List.cons_append, List.cons_append]
      simp [quoted?, code]
    · rw [List.singleton_append, quoted?]
      · rfl
      · exact noQuote
      · exact fun _ _ _ _ _ same => absurd same noBackslash
      · exact fun _ _ same => absurd same noBackslash

theorem quoted?_escape (content rest : List Char) :
    quoted? (escape content ++ '"' :: rest) = some (content, rest) := by
  induction content with
  | nil => rfl
  | cons c content ih =>
      rw [escape, List.flatMap_cons, List.append_assoc, quoted?_escapeChar]
      rw [escape] at ih
      rw [ih]
      rfl

end Freshen
