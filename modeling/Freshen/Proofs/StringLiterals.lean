import Freshen.Proofs.LiteralReading

/-!
String literals survive printing: a JavaScript reader gets the string back and stops at the end of
the literal, whatever follows. Nothing in a string can end its literal or break its line.
-/

namespace Freshen

def stringLiteral? : List Char → Option (List Char × List Char)
  | '"' :: rest => quoted? rest
  | _ => none

def isLineTerminator (c : Char) : Bool :=
  c == '\n' || c == '\r' || c == '\u2028' || c == '\u2029'

/-- Whether a text ends in a backslash that escapes what comes next: the backslashes at its end are
an odd number. -/
def endsInEscape (text : List Char) : Bool :=
  (text.reverse.takeWhile (· == '\\')).length % 2 == 1

theorem endsInEscape_concat (text : List Char) (c : Char) :
    endsInEscape (text ++ [c]) = (c == '\\' && !endsInEscape text) := by
  rw [endsInEscape, endsInEscape, List.reverse_concat, List.takeWhile_cons]
  cases c == '\\' with
  | false => rfl
  | true =>
      rw [if_pos rfl, List.length_cons, Bool.true_and, Bool.eq_iff_iff]
      simp only [beq_iff_eq, Bool.not_eq_true', beq_eq_false_iff_ne]
      omega

structure Ordinary (c : Char) : Prop where
  backslash : c ≠ '\\'
  quote : c ≠ '"'
  terminator : isLineTerminator c = false
  control : isControl c = false

theorem endsInEscape_append_ordinary {text : List Char} (closed : endsInEscape text = false)
    {more : List Char} (ordinary : ∀ c ∈ more, Ordinary c) :
    endsInEscape (text ++ more) = false := by
  induction more generalizing text with
  | nil => simpa using closed
  | cons c rest ih =>
      rw [List.append_cons]
      refine ih ?_ fun c present => ordinary c (List.mem_cons_of_mem _ present)
      have plain := (ordinary c List.mem_cons_self).backslash
      simp [endsInEscape_concat, plain]

/-- The written form of a character: itself, or an escape that has ordinary characters after its
letter. -/
inductive Escaped (c : Char) : List Char → Prop
  | plain : Ordinary c → Escaped c [c]
  | escape {letter : Char} {digits : List Char} : isLineTerminator letter = false →
    isControl letter = false → (∀ d ∈ digits, Ordinary d) → Escaped c ('\\' :: letter :: digits)

instance (c : Char) : Decidable (Ordinary c) :=
  decidable_of_iff
    (c ≠ '\\' ∧ c ≠ '"' ∧ isLineTerminator c = false ∧ isControl c = false)
    ⟨fun ⟨backslash, quote, terminator, control⟩ => ⟨backslash, quote, terminator, control⟩,
      fun ordinary =>
        ⟨ordinary.backslash, ordinary.quote, ordinary.terminator, ordinary.control⟩⟩

theorem ordinary_of_all {text : List Char} (all : text.all (decide <| Ordinary ·) = true) :
    ∀ c ∈ text, Ordinary c :=
  fun c present => of_decide_eq_true (List.all_eq_true.mp all c present)

theorem ordinary_hexDigits (code : Nat) (small : code < 0xa0) :
    ∀ d ∈ hexDigits 4 code, Ordinary d := by
  have all : ∀ code < 0xa0, (hexDigits 4 code).all (decide <| Ordinary ·) = true := by
    decide +kernel
  exact ordinary_of_all (all code small)

theorem escaped_escapeChar (c : Char) : Escaped c (escapeChar c) := by
  unfold escapeChar
  split
  · exact .escape rfl rfl (by simp)
  · exact .escape rfl rfl (by simp)
  · exact .escape rfl rfl (by simp)
  · exact .escape rfl rfl (by simp)
  · exact .escape rfl rfl (by simp)
  · exact .escape rfl rfl (ordinary_of_all (by decide))
  · exact .escape rfl rfl (ordinary_of_all (by decide))
  · rename_i noBackslash noQuote noNewline noReturn _ noLineSeparator noParagraphSeparator
    split
    · rename_i control
      have small : c.toNat < 0xa0 := by
        simp only [isControl, Bool.or_eq_true, Bool.and_eq_true, decide_eq_true_eq] at control
        omega
      exact .escape rfl rfl (ordinary_hexDigits c.toNat small)
    · rename_i visible
      refine .plain ⟨noBackslash, noQuote, ?_, by simpa using visible⟩
      simp only [isLineTerminator, Bool.or_eq_false_iff, beq_eq_false_iff_ne]
      exact ⟨⟨⟨noNewline, noReturn⟩, noLineSeparator⟩, noParagraphSeparator⟩

theorem endsInEscape_append_escaped {text written : List Char} {c : Char}
    (closed : endsInEscape text = false) (form : Escaped c written) :
    endsInEscape (text ++ written) = false := by
  cases form with
  | plain ordinary => exact endsInEscape_append_ordinary closed (by simpa using ordinary)
  | @escape letter digits _ _ ordinary =>
      rw [List.append_cons, List.append_cons]
      refine endsInEscape_append_ordinary ?_ ordinary
      rw [endsInEscape_concat, endsInEscape_concat, closed]
      simp

theorem endsInEscape_of_quote {text written before after : List Char} {c : Char}
    (closed : endsInEscape text = false) (form : Escaped c written)
    (parts : written = before ++ '"' :: after) : endsInEscape (text ++ before) = true := by
  cases form with
  | plain ordinary =>
      have same : '"' ∈ [c] := by simp [parts]
      exact absurd (List.mem_singleton.mp same).symm ordinary.quote
  | @escape letter digits _ _ ordinary =>
      match before with
      | [] => simp at parts
      | [backslash] =>
          obtain rfl := (List.cons.inj parts).1
          rw [endsInEscape_concat, closed]
          rfl
      | backslash :: other :: rest =>
          have inside : '"' ∈ digits := by
            simp only [List.cons_append, List.cons.injEq] at parts
            simp [parts.2.2]
          exact absurd rfl (ordinary _ inside).quote

theorem endsInEscape_append_escape {text : List Char} (closed : endsInEscape text = false)
    (content : List Char) : endsInEscape (text ++ escape content) = false := by
  induction content generalizing text with
  | nil => simpa [escape] using closed
  | cons c rest ih =>
      rw [escape, List.flatMap_cons, ← List.append_assoc]
      exact ih (endsInEscape_append_escaped closed (escaped_escapeChar c))

/-- Every quote inside a literal is escaped. -/
theorem endsInEscape_of_quote_in_escape {text content before after : List Char}
    (closed : endsInEscape text = false) (parts : escape content = before ++ '"' :: after) :
    endsInEscape (text ++ before) = true := by
  induction content generalizing text before with
  | nil => simp [escape] at parts
  | cons c rest ih =>
      have form := escaped_escapeChar c
      have still := endsInEscape_append_escaped closed form
      rw [escape, List.flatMap_cons, ← escape] at parts
      -- the quote stands in what is written for the first character, or behind it
      rcases List.append_eq_append_iff.mp parts with ⟨more, rfl, later⟩ | ⟨more, here, later⟩
      · rw [← List.append_assoc]
        exact ih still later
      · cases more with
        | nil =>
            rw [List.append_nil] at here
            rw [← here, ← List.append_nil (text ++ _)]
            exact ih still later.symm
        | cons quote tail =>
            obtain ⟨rfl, -⟩ := List.cons.inj later
            exact endsInEscape_of_quote closed form here

theorem printable_of_mem_escape {content : List Char} {c : Char} (present : c ∈ escape content) :
    isLineTerminator c = false ∧ isControl c = false := by
  obtain ⟨origin, _, inside⟩ := List.mem_flatMap.mp present
  generalize written : escapeChar origin = text at inside
  cases written ▸ escaped_escapeChar origin with
  | plain ordinary =>
      obtain rfl := List.mem_singleton.mp inside
      exact ⟨ordinary.terminator, ordinary.control⟩
  | escape terminator control ordinary =>
      rcases List.mem_cons.mp inside with rfl | inside
      · exact ⟨rfl, rfl⟩
      rcases List.mem_cons.mp inside with rfl | inside
      · exact ⟨terminator, control⟩
      · exact ⟨(ordinary c inside).terminator, (ordinary c inside).control⟩

theorem toList_stringLiteral (value : String) :
    (stringLiteral value).toList = '"' :: (escape value.toList ++ ['"']) := by
  simp [stringLiteral]

/-- Behind the content of a literal, the quote that is not escaped is the one that closes it. -/
theorem endsInEscape_eq_false_iff_last {content before after : List Char}
    (parts : escape content ++ ['"'] = before ++ '"' :: after) :
    endsInEscape before = false ↔ after = [] := by
  have initial : endsInEscape [] = false := rfl
  constructor
  · intro closed
    rcases List.append_eq_append_iff.mp parts with ⟨more, _, last⟩ | ⟨more, inside, last⟩
    · have size := congrArg List.length last
      simp only [List.length_append, List.length_cons, List.length_nil] at size
      exact List.length_eq_zero_iff.mp (by omega)
    · cases more with
      | nil => simpa using last
      | cons quote tail =>
          obtain ⟨rfl, -⟩ := List.cons.inj last
          have escaped := endsInEscape_of_quote_in_escape initial inside
          rw [List.nil_append, closed] at escaped
          contradiction
  · rintro rfl
    rw [← List.append_cancel_right parts]
    exact endsInEscape_append_escape initial content

/-- A string literal is read as its string, to the end and no further; of the quotes after the
first, the last one alone is not escaped; and the literal has no line ends and no control
characters in it. -/
theorem string_literal_read_back (value : String) :
    (∀ following, stringLiteral? ((stringLiteral value).toList ++ following) =
        some (value.toList, following)) ∧
      (∀ before after, (stringLiteral value).toList = '"' :: (before ++ '"' :: after) →
        (endsInEscape before = false ↔ after = [])) ∧
      ∀ c ∈ (stringLiteral value).toList, isLineTerminator c = false ∧ isControl c = false := by
  rw [toList_stringLiteral]
  refine ⟨fun following => ?_, fun before after parts => ?_, fun c present => ?_⟩
  · rw [List.cons_append, stringLiteral?, List.append_assoc, List.singleton_append, quoted?_escape]
  · exact endsInEscape_eq_false_iff_last (List.cons.inj parts).2
  · simp only [List.mem_cons, List.mem_append, List.not_mem_nil, or_false] at present
    rcases present with rfl | present | rfl
    · exact ⟨rfl, rfl⟩
    · exact printable_of_mem_escape present
    · exact ⟨rfl, rfl⟩

theorem string_literal_read_back_quote :
    stringLiteral "\\\"" = "\"\\\\\\\"\"" ∧
      stringLiteral? ((stringLiteral "\\\"").toList ++ [';']) = some (['\\', '"'], [';']) ∧
      (endsInEscape ['\\', '\\', '\\'] = false ↔ ['"'] = []) ∧
      isLineTerminator '\\' = false ∧ isControl '\\' = false := by
  have literal : (stringLiteral "\\\"").toList = ['"', '\\', '\\', '\\', '"', '"'] := by
    decide +kernel
  obtain ⟨read, quotes, printable⟩ := string_literal_read_back "\\\""
  exact ⟨by decide +kernel, read [';'], quotes ['\\', '\\', '\\'] ['"'] literal,
    printable '\\' (by simp [literal])⟩

end Freshen
