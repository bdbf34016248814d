import Freshen.Proofs.MintedNames
import Freshen.Scope.Context
import Mathlib.Data.List.Nodup

/-!
When names that are made one after another are distinct. A separator with a character that is not a
digit keeps the declared name and the number apart. One that is made of digits does not: its digits
can be read as the end of the name or as the start of the number.
-/

namespace Freshen

def Context.freshNames : Context → List String → List Minted
  | _, [] => []
  | context, name :: rest => (context.fresh name).1 :: (context.fresh name).2.freshNames rest

def Context.freshTexts (context : Context) (separator : String) (names : List String) :
    List String :=
  (context.freshNames names).map (Minted.text separator)

theorem Context.freshNames_eq (context : Context) (names : List String) :
    context.freshNames names =
      (names.zipIdx context.count).map fun (name, index) => ⟨name, index⟩ := by
  induction names generalizing context with
  | nil => rfl
  | cons name rest ih =>
      rw [freshNames, ih, List.zipIdx_cons, List.map_cons]
      rfl

theorem Context.freshNames_nodup (context : Context) (names : List String) :
    (context.freshNames names).Nodup := by
  apply List.Nodup.of_map Minted.index
  have numbers : (context.freshNames names).map Minted.index =
      List.range' context.count names.length := by
    rw [freshNames_eq, List.map_map]
    exact List.zipIdx_map_snd context.count names
  rw [numbers]
  exact List.nodup_range'

theorem Context.length_freshTexts (context : Context) (separator : String) (names : List String) :
    (context.freshTexts separator names).length = names.length := by
  rw [freshTexts, freshNames_eq, List.length_map, List.length_map, List.length_zipIdx]

theorem Context.getElem?_freshTexts (context : Context) (separator : String) (names : List String)
    (index : Nat) :
    (context.freshTexts separator names)[index]? =
      names[index]?.map fun name => Minted.text separator ⟨name, context.count + index⟩ := by
  rw [freshTexts, freshNames_eq, List.getElem?_map, List.getElem?_map, List.getElem?_zipIdx,
    Option.map_map, Option.map_map]
  rfl

theorem digitChar_of_isDigit {d : Char} (digit : d.isDigit = true) :
    d.toNat - '0'.toNat < 10 ∧ Nat.digitChar (d.toNat - '0'.toNat) = d := by
  have range : 48 ≤ d.toNat ∧ d.toNat ≤ 57 := by
    simpa [Char.isDigit, UInt32.le_iff_toNat_le] using digit
  have small : d.toNat - '0'.toNat < 10 := by
    change d.toNat - 48 < 10
    omega
  refine ⟨small, Char.toNat_inj.mp ?_⟩
  rw [Nat.toNat_digitChar_of_lt_ten small]
  change 48 + (d.toNat - 48) = d.toNat
  omega

/-- Digits behind the digits of a number that is not zero are the digits of a number again. -/
theorem toDigits_ofDigitChars {digits : List Char} (all : ∀ d ∈ digits, d.isDigit = true) {n : Nat}
    (positive : 0 < n) :
    Nat.toDigits 10 (Nat.ofDigitChars 10 digits n) = Nat.toDigits 10 n ++ digits := by
  induction digits generalizing n with
  | nil => simp
  | cons d rest ih =>
      obtain ⟨small, shown⟩ := digitChar_of_isDigit (all d List.mem_cons_self)
      have longer := Nat.toDigits_append_toDigits (by decide : 1 < 10) positive small
      rw [Nat.toDigits_of_lt_base small, shown] at longer
      rw [Nat.ofDigitChars_cons,
        ih (fun digit member => all digit (List.mem_cons_of_mem _ member)) (by omega), ← longer,
        List.append_assoc, List.singleton_append]

/-- With the separator `s`, the name `s1` and the number 0 give the text `s1s0`. So do the empty
name and the number that is written `1s0`. -/
theorem Minted.text_collides {separator : String} {n : Nat}
    (written : Nat.toDigits 10 n = '1' :: (separator.toList ++ ['0'])) :
    Minted.text separator ⟨separator ++ "1", 0⟩ = Minted.text separator ⟨"", n⟩ := by
  apply String.toList_injective
  simp [Minted.toList_text, written]

theorem exists_number_written {separator : String}
    (digits : ∀ c ∈ separator.toList, c.isDigit = true) (short : separator.length ≤ 7) :
    ∃ n, n < 1000000000 ∧ Nat.toDigits 10 (n + 1) = '1' :: (separator.toList ++ ['0']) := by
  have all : ∀ d ∈ separator.toList ++ ['0'], d.isDigit = true := by
    intro d member
    rcases List.mem_append.mp member with member | member
    · exact digits d member
    · rw [List.mem_singleton.mp member]
      rfl
  have one : Nat.toDigits 10 1 = ['1'] := by decide
  have written := toDigits_ofDigitChars all Nat.one_pos
  rw [one, List.singleton_append] at written
  cases number : Nat.ofDigitChars 10 (separator.toList ++ ['0']) 1 with
  | zero => simp [number] at written
  | succ n =>
      rw [number] at written
      have length : (Nat.toDigits 10 (n + 1)).length ≤ 9 := by
        rw [← String.length_toList] at short
        rw [written, List.length_cons, List.length_append, List.length_singleton]
        omega
      have bound := (Nat.length_toDigits_le_iff (by decide) (by decide)).mp length
      exact ⟨n, by omega, written⟩

theorem exists_fresh_collision {separator : String}
    (digits : ∀ c ∈ separator.toList, c.isDigit = true) (short : separator.length ≤ 7) :
    ∃ names : List String, names.length < 4294967296 ∧
      ¬ (({} : Context).freshTexts separator names).Nodup := by
  obtain ⟨n, bound, written⟩ := exists_number_written digits short
  -- Empty names use up the numbers in between, and the last of them collides with the first name.
  refine ⟨(separator ++ "1") :: List.replicate (n + 1) "", ?_, ?_⟩
  · rw [List.length_cons, List.length_replicate]
    omega
  · rw [List.nodup_iff_getElem?_ne_getElem?]
    intro distinct
    apply distinct 0 (n + 1) (Nat.succ_pos n)
    · rw [Context.length_freshTexts, List.length_cons, List.length_replicate]
      exact Nat.lt_succ_self _
    · rw [Context.getElem?_freshTexts, Context.getElem?_freshTexts, List.getElem?_cons_zero,
        List.getElem?_cons_succ, List.getElem?_replicate_of_lt (Nat.lt_succ_self n)]
      simpa using Minted.text_collides written

/-- Made names are told apart by their texts exactly if the separator has a character that is not a
digit, which every separator that may be used has. -/
theorem fresh_names_distinct_exactly :
    (∀ separator : String, (∃ c ∈ separator.toList, c.isDigit = false) →
      Function.Injective (Minted.text separator) ∧
        ∀ (context : Context) (names : List String), (context.freshTexts separator names).Nodup) ∧
      (∀ separator : String, separatorFault? separator = none →
        ∃ c ∈ separator.toList, c.isDigit = false) ∧
      ∀ separator : String, (∀ c ∈ separator.toList, c.isDigit = true) → separator.length ≤ 7 →
        ∃ names : List String, names.length < 4294967296 ∧
          ¬ (({} : Context).freshTexts separator names).Nodup := by
  refine ⟨?_, fun _ valid => exists_nonDigit_of_valid valid, ?_⟩
  · intro separator some
    have injective := Minted.text_injective some
    refine ⟨injective, ?_⟩
    intro context names
    exact (context.freshNames_nodup names).map injective
  · intro separator digits short
    exact exists_fresh_collision digits short

theorem fresh_names_distinct_mixed :
    (({} : Context).freshTexts "$1" ["a", "a$1", "a$11"]).Nodup ∧
      (∃ c ∈ "1_".toList, c.isDigit = false) ∧
      ∃ names : List String, names.length < 4294967296 ∧
        ¬ (({} : Context).freshTexts "01" names).Nodup :=
  ⟨(fresh_names_distinct_exactly.1 "$1" ⟨'$', by decide, by decide⟩).2 {} _,
    fresh_names_distinct_exactly.2.1 "1_" (by decide),
    fresh_names_distinct_exactly.2.2 "01" (by simp) (by decide)⟩

end Freshen
