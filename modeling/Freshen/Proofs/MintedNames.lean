import Freshen.Config.Separator
import Freshen.Scope.Chain
import Mathlib.Data.List.TakeWhile

/-!
Made names are told apart by their text. The last character of a separator that is not a digit ends
what belongs to the declared name, and the digits behind it give the number.
-/

namespace Freshen

theorem exists_last_nonDigit {text : List Char} (some : ∃ c ∈ text, c.isDigit = false) :
    ∃ front c digits, text = front ++ c :: digits ∧ c.isDigit = false ∧
      ∀ d ∈ digits, d.isDigit = true := by
  induction text with
  | nil => simp at some
  | cons first rest ih =>
      by_cases later : ∃ c ∈ rest, c.isDigit = false
      · obtain ⟨front, c, digits, split, nonDigit, all⟩ := ih later
        exact ⟨first :: front, c, digits, by rw [split, List.cons_append], nonDigit, all⟩
      · obtain ⟨c, member, nonDigit⟩ := some
        have here : c = first := by
          rcases List.mem_cons.mp member with here | member
          · exact here
          · exact absurd ⟨c, member, nonDigit⟩ later
        refine ⟨[], first, rest, rfl, here ▸ nonDigit, ?_⟩
        intro d member
        cases digit : d.isDigit with
        | true => rfl
        | false => exact absurd ⟨d, member, digit⟩ later

/-- A text is cut behind its last character that is no digit in one way only. -/
theorem cut_at_last_nonDigit {front other digits more : List Char} {c e : Char}
    (same : front ++ c :: digits = other ++ e :: more) (nonDigit : c.isDigit = false)
    (nonDigit' : e.isDigit = false) (all : ∀ d ∈ digits, d.isDigit = true)
    (all' : ∀ d ∈ more, d.isDigit = true) : front ++ [c] = other ++ [e] ∧ digits = more := by
  have tail {front digits : List Char} {c : Char} (nonDigit : c.isDigit = false)
      (all : ∀ d ∈ digits, d.isDigit = true) :
      (front ++ c :: digits).reverse.takeWhile Char.isDigit = digits.reverse := by
    have flipped : (front ++ c :: digits).reverse = digits.reverse ++ c :: front.reverse := by simp
    rw [flipped, List.takeWhile_append_of_pos (by simpa using all)]
    simp [nonDigit]
  have ends : digits = more := by
    apply List.reverse_inj.mp
    calc
      digits.reverse = (front ++ c :: digits).reverse.takeWhile Char.isDigit :=
        (tail nonDigit all).symm
      _ = (other ++ e :: more).reverse.takeWhile Char.isDigit := by rw [same]
      _ = more.reverse := tail nonDigit' all'
  subst ends
  refine ⟨?_, rfl⟩
  have joined : front ++ [c] ++ digits = other ++ [e] ++ digits := by simpa using same
  exact List.append_cancel_right joined

theorem toDigits_injective {first second : Nat}
    (same : Nat.toDigits 10 first = Nat.toDigits 10 second) : first = second := by
  have read := congrArg (fun digits => Nat.ofDigitChars 10 digits 0) same
  simpa using read

theorem isDigit_toDigits {n : Nat} : ∀ d ∈ Nat.toDigits 10 n, d.isDigit = true :=
  fun _ member => Nat.isDigit_of_mem_toDigits (by decide) (by decide) member

theorem Minted.toList_text (separator : String) (name : Minted) :
    (name.text separator).toList =
      name.base.toList ++ separator.toList ++ Nat.toDigits 10 name.index := by
  simp [Minted.text, Nat.toString_eq_repr, Nat.toList_repr]

theorem Minted.separator_infix_text (separator : String) (name : Minted) :
    separator.toList <:+: (name.text separator).toList :=
  ⟨name.base.toList, Nat.toDigits 10 name.index, (name.toList_text separator).symm⟩

theorem Minted.last_isDigit (separator : String) (name : Minted) :
    (name.text separator).toList.getLast?.any Char.isDigit = true := by
  rw [Minted.toList_text, List.getLast?_append, List.getLast?_eq_some_getLast Nat.toDigits_ne_nil]
  exact isDigit_toDigits _ (List.getLast_mem _)

theorem Minted.text_ne_base {separator : String} (some : ∃ c ∈ separator.toList, c.isDigit = false)
    (name : Minted) : name.text separator ≠ name.base := by
  intro same
  obtain ⟨c, member, _⟩ := some
  have lengths := congrArg (·.toList.length) same
  have positive := List.length_pos_of_mem member
  simp only [Minted.toList_text, List.length_append] at lengths
  omega

/-- Any separator that is not made of digits alone tells made names apart. -/
theorem Minted.text_injective {separator : String}
    (some : ∃ c ∈ separator.toList, c.isDigit = false) :
    Function.Injective (Minted.text separator) := by
  obtain ⟨front, c, digits, split, nonDigit, all⟩ := exists_last_nonDigit some
  intro first second same
  have whole : first.base.toList ++ front ++ c :: (digits ++ Nat.toDigits 10 first.index) =
      second.base.toList ++ front ++ c :: (digits ++ Nat.toDigits 10 second.index) := by
    have lists := congrArg String.toList same
    simpa [Minted.toList_text, split] using lists
  have behind {n : Nat} : ∀ d ∈ digits ++ Nat.toDigits 10 n, d.isDigit = true := by
    intro d member
    rcases List.mem_append.mp member with member | member
    · exact all d member
    · exact isDigit_toDigits d member
  obtain ⟨fronts, numbers⟩ := cut_at_last_nonDigit whole nonDigit nonDigit behind behind
  have base : first.base = second.base := by
    apply String.toList_injective
    exact List.append_cancel_right (List.append_cancel_right fronts)
  have index : first.index = second.index := toDigits_injective (List.append_cancel_left numbers)
  cases first
  cases second
  simp only at base index
  rw [base, index]

/-- A separator that may be used ends in a character that is not a digit. -/
theorem ends_of_valid {separator : String} (valid : separatorFault? separator = none) :
    ∃ front c, separator.toList = front ++ [c] ∧ c.isDigit = false := by
  rw [separatorFault?] at valid
  split at valid
  · cases valid
  · rename_i nonempty
    split at valid
    · cases valid
    · split at valid
      · cases valid
      · rename_i last
        refine ⟨_, _, (List.dropLast_concat_getLast nonempty).symm, ?_⟩
        simpa [List.getLast?_eq_some_getLast nonempty] using last

theorem exists_nonDigit_of_valid {separator : String} (valid : separatorFault? separator = none) :
    ∃ c ∈ separator.toList, c.isDigit = false := by
  obtain ⟨front, c, split, nonDigit⟩ := ends_of_valid valid
  exact ⟨c, by simp [split], nonDigit⟩

end Freshen
