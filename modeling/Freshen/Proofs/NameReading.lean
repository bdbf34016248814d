import Freshen.Proofs.Readable
import Freshen.Proofs.WrittenText

/-!
Written names are read back: the number that a renaming put after a name is told from the name, and
neither is taken for a word of the language.
-/

namespace Freshen

open Reading

theorem word_append {front rest : List Char} (all : ∀ c ∈ front, isIdentifierChar c = true)
    (stops : Stops isIdentifierChar rest) : word (front ++ rest) = front :=
  takeWhile_append_stop all stops

theorem afterWord_append {front rest : List Char} (all : ∀ c ∈ front, isIdentifierChar c = true)
    (stops : Stops isIdentifierChar rest) : afterWord (front ++ rest) = rest :=
  dropWhile_append_stop all stops

theorem isIdentifierChar_of_isDigit {c : Char} (digit : c.isDigit = true) :
    isIdentifierChar c = true := by
  simp [isIdentifierChar, Char.isAlphanum, digit]

theorem isIdentifierChar_of_valid {separator : String} (valid : separatorFault? separator = none) :
    ∀ c ∈ separator.toList, isIdentifierChar c = true := by
  rw [separatorFault?] at valid
  split at valid
  · cases valid
  · split at valid
    · cases valid
    · rename_i allowed
      simpa using allowed

theorem Numbered.isIdentifierChar {separator name : String} {written : List Char}
    (valid : separatorFault? separator = none)
    (plain : ∀ c ∈ name.toList, isIdentifierChar c = true)
    (numbered : Numbered separator name written) :
    ∀ c ∈ written, isIdentifierChar c = true := by
  obtain ⟨number, rfl⟩ := numbered
  intro c member
  rw [Minted.toList_text] at member
  simp only [List.mem_append] at member
  rcases member with (member | member) | member
  · exact plain c member
  · exact isIdentifierChar_of_valid valid c member
  · exact isIdentifierChar_of_isDigit (isDigit_toDigits c member)

theorem Numbered.original {separator name : String} {written : List Char}
    (valid : separatorFault? separator = none) (numbered : Numbered separator name written) :
    original separator.toList written = name.toList := by
  obtain ⟨number, rfl⟩ := numbered
  obtain ⟨front, c, split, nonDigit⟩ := ends_of_valid valid
  have digits : ∀ d ∈ (Nat.toDigits 10 number).reverse, d.isDigit = true := by
    simpa using isDigit_toDigits (n := number)
  have marked : (Minted.text separator ⟨name, number⟩).toList.rdropWhile Char.isDigit =
      name.toList ++ separator.toList := by
    rw [Minted.toList_text, List.rdropWhile, List.reverse_append,
      List.dropWhile_append_of_pos digits, split]
    simp [nonDigit]
  rw [Reading.original, if_pos (Minted.separator_infix_text separator _), marked]
  simp

theorem Keyword.last_nonDigit : ∀ keyword ∈ Keyword.all,
    keyword.word.toList.getLast?.any Char.isDigit = false := by
  decide

/-- No word of the language ends in a number. -/
theorem Numbered.ofWord? {separator name : String} {written : List Char}
    (numbered : Numbered separator name written) :
    Keyword.ofWord? (String.ofList written) = none := by
  obtain ⟨number, rfl⟩ := numbered
  cases found : Keyword.ofWord? (String.ofList (Minted.text separator ⟨name, number⟩).toList) with
  | none => rfl
  | some keyword =>
      have same := List.find?_some found
      have plain := Keyword.last_nonDigit keyword (List.mem_of_find?_eq_some found)
      rw [eq_of_beq same, String.toList_ofList, Minted.last_isDigit] at plain
      cases plain

structure Spelled (separator name : String) (written : List Char) : Prop where
  word : ∀ c ∈ written, isIdentifierChar c = true
  opens : ∃ c more, written = c :: more ∧ c.isDigit = false
  keyword : Keyword.ofWord? (String.ofList written) = none
  original : original separator.toList written = name.toList

theorem isPlainName_iff {separator name : String} : isPlainName separator name = true ↔
    isName name = true ∧ Keyword.ofWord? name = none ∧
      ¬ separator.toList <:+: name.toList := by
  simp [isPlainName, and_assoc]

theorem opens_of_isName {name : String} (named : isName name = true) :
    (∀ c ∈ name.toList, isIdentifierChar c = true) ∧
      ∃ c more, name.toList = c :: more ∧ c.isDigit = false := by
  simp only [isName, Bool.and_eq_true, List.all_eq_true] at named
  refine ⟨named.1, ?_⟩
  cases chars : name.toList with
  | nil => simp [chars] at named
  | cons c more => exact ⟨c, more, rfl, by simpa [chars] using named.2⟩

theorem Numbered.spelled {separator name : String} {written : List Char}
    (valid : separatorFault? separator = none) (plain : isPlainName separator name = true)
    (numbered : Numbered separator name written) : Spelled separator name written := by
  obtain ⟨named, -, -⟩ := isPlainName_iff.mp plain
  obtain ⟨all, c, more, chars, nonDigit⟩ := opens_of_isName named
  refine ⟨numbered.isIdentifierChar valid all, ?_, numbered.ofWord?, numbered.original valid⟩
  obtain ⟨number, rfl⟩ := numbered
  exact ⟨c, _, by rw [Minted.toList_text, chars]; rfl, nonDigit⟩

theorem spelled_of_refer {separator name : String} {written : List Char}
    (valid : separatorFault? separator = none) (plain : isPlainName separator name = true)
    (refers : written = name.toList ∨ Numbered separator name written) :
    Spelled separator name written := by
  rcases refers with rfl | numbered
  · obtain ⟨named, noKeyword, apart⟩ := isPlainName_iff.mp plain
    obtain ⟨all, opens⟩ := opens_of_isName named
    refine ⟨all, opens, by rwa [String.ofList_toList], ?_⟩
    rw [Reading.original, if_neg apart]
  · exact numbered.spelled valid plain

theorem spelled_of_ident {separator name : String} {span : Span} {written : List Char}
    (valid : separatorFault? separator = none) (plain : isPlainName separator name = true)
    (writes : Step.WritesAll separator (Expr.ident name span).steps written) :
    Spelled separator name written := by
  rw [Expr.steps, Step.writesAll_singleton, Step.Writes] at writes
  exact spelled_of_refer valid plain writes

namespace Spelled

variable {separator name : String} {written rest : List Char}

theorem word_eq (spelled : Spelled separator name written) (stops : Stops isIdentifierChar rest) :
    Reading.word (written ++ rest) = written :=
  word_append spelled.word stops

theorem keyword?_eq (spelled : Spelled separator name written)
    (stops : Stops isIdentifierChar rest) : keyword? (written ++ rest) = none := by
  rw [keyword?, spelled.word_eq stops, spelled.keyword]

theorem name?_eq (spelled : Spelled separator name written)
    (stops : Stops isIdentifierChar rest) :
    name? separator (written ++ rest) = some (name, rest) := by
  obtain ⟨c, more, rfl, -⟩ := spelled.opens
  rw [name?, spelled.word_eq stops, afterWord_append spelled.word stops, spelled.original,
    if_neg (by simp), String.ofList_toList]

end Spelled

end Freshen
