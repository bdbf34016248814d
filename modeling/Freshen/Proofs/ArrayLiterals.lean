import Freshen.Proofs.StringLiterals
import Mathlib.Data.List.DropRight

/-!
Array literals by the rules of JavaScript. The text between the brackets is cut at the commas that
stand in no inner bracket and in no string. A piece with nothing in it is a hole, except behind the
last comma, where it adds no element.
-/

namespace Freshen

/-- White space and line ends of JavaScript, besides the spaces from U+2000 to U+200A. -/
def spacingCodes : List Nat :=
  [0x9, 0xa, 0xb, 0xc, 0xd, 0x20, 0xa0, 0x1680, 0x2028, 0x2029, 0x202f, 0x205f, 0x3000, 0xfeff]

def isSpacing (c : Char) : Bool :=
  spacingCodes.contains c.toNat || (0x2000 ≤ c.toNat && c.toNat ≤ 0x200a)

namespace ArrayLiteral

def closer? (c : Char) : Option Char :=
  match c with
  | '(' => some ')'
  | '[' => some ']'
  | '\x7b' => some '\x7d'
  | _ => none

def isCloser (c : Char) : Bool := c == ')' || c == ']' || c == '\x7d'

def isQuote (c : Char) : Bool := c == '"' || c == '\x27' || c == '\x60'

inductive Mode where
  | code
  | string (quote : Char)
  | escaped (quote : Char)
deriving DecidableEq, Repr

/-- Where a reader is: what closes the inner brackets that are open, and if it is in a string. -/
structure Place where
  closers : List Char
  mode : Mode
deriving DecidableEq, Repr

def Place.outermost : Place := ⟨[], .code⟩

/-- Behind a character. A bracket may only be closed by what closes it. -/
def Place.next? : Place → Char → Option Place
  | ⟨closers, .escaped quote⟩, _ => some ⟨closers, .string quote⟩
  | ⟨closers, .string quote⟩, c =>
    if c = '\\' then some ⟨closers, .escaped quote⟩
    else if c = quote then some ⟨closers, .code⟩
    else some ⟨closers, .string quote⟩
  | ⟨closers, .code⟩, c =>
    if isQuote c then some ⟨closers, .string c⟩
    else if isCloser c then
      if closers.head? = some c then some ⟨closers.tail, .code⟩ else none
    else some ⟨(closer? c).toList ++ closers, .code⟩

def prepend (front : List Char) (cut : List (List Char) × List Char) :
    List (List Char) × List Char :=
  (cut.1.modifyHead (front ++ ·), cut.2)

/-- The pieces between commas up to the bracket that closes the array, and what follows it. -/
def pieces? (place : Place) : List Char → Option (List (List Char) × List Char)
  | [] => none
  | c :: rest =>
    if place = .outermost ∧ c = ',' then
      (pieces? place rest).map fun (pieces, following) => ([] :: pieces, following)
    else if place = .outermost ∧ c = ']' then some ([[]], rest)
    else do
      let next ← place.next? c
      (pieces? next rest).map (prepend [c])

def trim (text : List Char) : List Char := (text.dropWhile isSpacing).rdropWhile isSpacing

def element (piece : List Char) : Option (List Char) :=
  if piece.all isSpacing then none else some (trim piece)

/-- The elements of the pieces. Behind the last comma nothing need stand. -/
def elements : List (List Char) → List (Option (List Char))
  | [] => []
  | [last] => if last.all isSpacing then [] else [element last]
  | piece :: rest => element piece :: elements rest

end ArrayLiteral

/-- An array literal at the front of a text: the texts of its elements, with the holes between them,
and what follows it. -/
def arrayLiteral? : List Char → Option (List (Option (List Char)) × List Char)
  | '[' :: rest =>
    (ArrayLiteral.pieces? .outermost rest).map fun (pieces, following) =>
      (ArrayLiteral.elements pieces, following)
  | _ => none

namespace ArrayLiteral

theorem prepend_nil (cut : List (List Char) × List Char) : prepend [] cut = cut := by
  cases cut with
  | mk pieces following => cases pieces <;> rfl

theorem prepend_prepend (front more : List Char) (cut : List (List Char) × List Char) :
    prepend front (prepend more cut) = prepend (front ++ more) cut := by
  cases cut with
  | mk pieces following => cases pieces <;> simp [prepend]

theorem map_prepend_nil (cut : Option (List (List Char) × List Char)) :
    cut.map (prepend []) = cut := by
  cases cut with
  | none => rfl
  | some cut => rw [Option.map_some, prepend_nil]

theorem map_prepend (front more : List Char) (cut : Option (List (List Char) × List Char)) :
    (cut.map (prepend more)).map (prepend front) = cut.map (prepend (front ++ more)) := by
  rw [Option.map_map]
  congr 1
  exact funext (prepend_prepend front more)

theorem pieces?_cons {place next : Place} {c : Char} (moves : place.next? c = some next)
    (inside : place = .outermost → c ≠ ',' ∧ c ≠ ']') (rest : List Char) :
    pieces? place (c :: rest) = (pieces? next rest).map (prepend [c]) := by
  rw [pieces?, if_neg fun ⟨outermost, comma⟩ => (inside outermost).1 comma,
    if_neg fun ⟨outermost, bracket⟩ => (inside outermost).2 bracket, moves]
  rfl

/-! Texts that are read to their end without a cut. -/

def special : List Char := ['"', '\x27', '\x60', '(', ')', '[', ']', '\x7b', '\x7d', ',']

def isPlain (c : Char) : Bool := !special.contains c

theorem isPlain_of_kind {kind : Char → Bool} (apart : special.all (!kind ·) = true) {c : Char}
    (here : kind c = true) : isPlain c = true := by
  by_contra other
  have member : c ∈ special := by simpa [isPlain] using other
  simpa [here] using List.all_eq_true.mp apart c member

/-- Every bracket is closed and every string ends. Commas stand inside brackets and strings only,
unless they are allowed. -/
inductive Guarded : Bool → List Char → Prop
  | nil {commas : Bool} : Guarded commas []
  | plain {commas : Bool} {c : Char} {text : List Char} : isPlain c = true → Guarded commas text →
    Guarded commas (c :: text)
  | comma {text : List Char} : Guarded true text → Guarded true (',' :: text)
  | literal {commas : Bool} (value : String) {text : List Char} : Guarded commas text →
    Guarded commas ((stringLiteral value).toList ++ text)
  | bracket {commas : Bool} {opener closer : Char} {inner text : List Char} :
    closer? opener = some closer → Guarded true inner → Guarded commas text →
    Guarded commas (opener :: (inner ++ closer :: text))

namespace Guarded

variable {commas : Bool} {text more : List Char}

theorem append (first : Guarded commas text) (second : Guarded commas more) :
    Guarded commas (text ++ more) := by
  induction first with
  | nil => exact second
  | plain other _ ih => exact .plain other (ih second)
  | comma _ ih => exact .comma (ih second)
  | literal value _ ih =>
      rw [List.append_assoc]
      exact .literal value (ih second)
  | bracket closes inner _ _ ih =>
      rw [List.cons_append, List.append_assoc, List.cons_append]
      exact .bracket closes inner (ih second)

theorem of_plain (plain : ∀ c ∈ text, isPlain c = true) : Guarded commas text := by
  induction text with
  | nil => exact .nil
  | cons c rest ih =>
      exact .plain (plain c List.mem_cons_self) (ih fun c member =>
        plain c (List.mem_cons_of_mem _ member))

theorem allow (guarded : Guarded commas text) : Guarded true text := by
  induction guarded with
  | nil => exact .nil
  | plain other _ ih => exact .plain other ih
  | comma _ ih => exact .comma ih
  | literal value _ ih => exact .literal value ih
  | bracket closes inner _ _ ih => exact .bracket closes inner ih

end Guarded

/-! What is between two places that are not in the outermost code is passed over. -/

theorem not_outermost_of_string {closers : List Char} {quote c : Char} :
    Place.mk closers (.string quote) = .outermost → c ≠ ',' ∧ c ≠ ']' :=
  fun same => nomatch (Place.mk.inj same).2

theorem pieces?_ordinary {closers text : List Char} (ordinary : ∀ c ∈ text, Ordinary c)
    (rest : List Char) :
    pieces? ⟨closers, .string '"'⟩ (text ++ rest) =
      (pieces? ⟨closers, .string '"'⟩ rest).map (prepend text) := by
  induction text with
  | nil => exact (map_prepend_nil _).symm
  | cons c text ih =>
      have plain := ordinary c List.mem_cons_self
      have stays : (Place.mk closers (.string '"')).next? c = some ⟨closers, .string '"'⟩ := by
        rw [Place.next?, if_neg plain.backslash, if_neg plain.quote]
      rw [List.cons_append, pieces?_cons stays not_outermost_of_string,
        ih fun c member => ordinary c (List.mem_cons_of_mem _ member), map_prepend,
        List.singleton_append]

theorem pieces?_escaped {closers written : List Char} {c : Char} (form : Escaped c written)
    (rest : List Char) :
    pieces? ⟨closers, .string '"'⟩ (written ++ rest) =
      (pieces? ⟨closers, .string '"'⟩ rest).map (prepend written) := by
  cases form with
  | plain ordinary => exact pieces?_ordinary (by simpa using ordinary) rest
  | @escape letter digits _ _ ordinary =>
      have backslash : (Place.mk closers (.string '"')).next? '\\' =
        some ⟨closers, .escaped '"'⟩ := rfl
      have letters : (Place.mk closers (.escaped '"')).next? letter =
        some ⟨closers, .string '"'⟩ := rfl
      rw [List.cons_append, List.cons_append, pieces?_cons backslash not_outermost_of_string,
        pieces?_cons letters (fun same => nomatch (Place.mk.inj same).2),
        pieces?_ordinary ordinary, map_prepend, map_prepend]
      rfl

theorem pieces?_escape (closers content rest : List Char) :
    pieces? ⟨closers, .string '"'⟩ (escape content ++ '"' :: rest) =
      (pieces? ⟨closers, .code⟩ rest).map (prepend (escape content ++ ['"'])) := by
  induction content with
  | nil =>
      have ends : (Place.mk closers (.string '"')).next? '"' = some ⟨closers, .code⟩ := rfl
      exact pieces?_cons ends not_outermost_of_string rest
  | cons c content ih =>
      have split : escape (c :: content) = escapeChar c ++ escape content := List.flatMap_cons
      rw [split, List.append_assoc, pieces?_escaped (escaped_escapeChar c), ih, map_prepend,
        List.append_assoc]

theorem not_special_of_plain {c : Char} (plain : isPlain c = true) :
    isQuote c = false ∧ isCloser c = false ∧ closer? c = none ∧ c ≠ ',' := by
  simp only [isPlain, special, List.contains_cons, List.contains_nil, Bool.or_false,
    Bool.not_or, Bool.and_eq_true, Bool.not_eq_true', beq_eq_false_iff_ne] at plain
  obtain ⟨double, single, back, parenthesis, closed, bracket, closed', brace, closed'', comma⟩ :=
    plain
  refine ⟨?_, ?_, ?_, comma⟩
  · simp [isQuote, double, single, back]
  · simp [isCloser, closed, closed', closed'']
  · rw [closer?]
    · exact parenthesis
    · exact bracket
    · exact brace

theorem closer_of_closer? {opener closer : Char} (closes : closer? opener = some closer) :
    isQuote opener = false ∧ isCloser opener = false ∧ isQuote closer = false ∧
      isCloser closer = true ∧ opener ≠ ',' ∧ opener ≠ ']' := by
  unfold closer? at closes
  split at closes
  · cases closes
    decide
  · cases closes
    decide
  · cases closes
    decide
  · cases closes

/-- A guarded text is read to its end without a cut. Commas are passed over inside brackets. -/
theorem pieces?_guarded {commas : Bool} {text : List Char} (guarded : Guarded commas text)
    {closers : List Char} (inside : commas = true → closers ≠ []) (rest : List Char) :
    pieces? ⟨closers, .code⟩ (text ++ rest) =
      (pieces? ⟨closers, .code⟩ rest).map (prepend text) := by
  induction guarded generalizing closers rest with
  | nil => exact (map_prepend_nil _).symm
  | @plain _ c _ plain _ ih =>
      obtain ⟨quote, closer, opener, comma⟩ := not_special_of_plain plain
      have stays : (Place.mk closers .code).next? c = some ⟨closers, .code⟩ := by
        simp [Place.next?, quote, closer, opener]
      have bracket : c ≠ ']' := by
        rintro rfl
        cases closer
      rw [List.cons_append, pieces?_cons stays (fun _ => ⟨comma, bracket⟩), ih inside, map_prepend,
        List.singleton_append]
  | comma _ ih =>
      have inner : Place.mk closers .code ≠ .outermost := fun same =>
        inside rfl (Place.mk.inj same).1
      have stays : (Place.mk closers .code).next? ',' = some ⟨closers, .code⟩ := rfl
      rw [List.cons_append, pieces?_cons stays (fun same => absurd same inner), ih inside,
        map_prepend, List.singleton_append]
  | literal value _ ih =>
      have quote : (Place.mk closers .code).next? '"' = some ⟨closers, .string '"'⟩ := rfl
      rw [toList_stringLiteral, List.append_assoc, List.cons_append, List.append_assoc,
        pieces?_cons quote (fun _ => by decide), List.singleton_append, pieces?_escape, ih inside,
        map_prepend, map_prepend]
      simp
  | @bracket _ opener closer _ _ closes _ _ innerIH ih =>
      obtain ⟨quote, notCloser, quote', isCloser, comma, bracket⟩ := closer_of_closer? closes
      have opens : (Place.mk closers .code).next? opener = some ⟨closer :: closers, .code⟩ := by
        simp [Place.next?, quote, notCloser, closes]
      have ends : (Place.mk (closer :: closers) .code).next? closer = some ⟨closers, .code⟩ := by
        simp [Place.next?, quote', isCloser]
      rw [List.cons_append, pieces?_cons opens (fun _ => ⟨comma, bracket⟩), List.append_assoc,
        innerIH (fun _ => List.cons_ne_nil _ _), List.cons_append,
        pieces?_cons ends (fun same => nomatch (Place.mk.inj same).1), ih inside, map_prepend,
        map_prepend, map_prepend]
      simp

/-! Texts that are elements as they are. -/

/-- The text has something in it, and no spacing at its ends. -/
structure Bare (text : List Char) : Prop where
  first : ∃ c ∈ text.head?, isSpacing c = false
  last : ∃ c ∈ text.getLast?, isSpacing c = false

theorem Bare.not_all {text : List Char} (bare : Bare text) : text.all isSpacing = false := by
  obtain ⟨c, here, visible⟩ := bare.first
  exact List.all_eq_false.mpr ⟨c, List.mem_of_mem_head? here, by simp [visible]⟩

theorem Bare.trim_eq {text : List Char} (bare : Bare text) : trim text = text := by
  obtain ⟨c, here, visible⟩ := bare.first
  obtain ⟨d, there, visible'⟩ := bare.last
  have front : text.dropWhile isSpacing = text := by
    cases text with
    | nil => rfl
    | cons first rest =>
        cases here
        simp [visible]
  have some : text ≠ [] := by
    rintro rfl
    cases here
  rw [trim, front, List.rdropWhile_eq_self_iff]
  intro _
  rw [List.getLast?_eq_some_getLast some] at there
  cases there
  simp [visible']

theorem bare_of_trim_eq {text : List Char} (some : text ≠ []) (same : trim text = text) :
    Bare text := by
  have front : text.dropWhile isSpacing = text := by
    refine (List.dropWhile_suffix isSpacing).eq_of_length (Nat.le_antisymm ?_ ?_)
    · exact (List.dropWhile_suffix isSpacing).length_le
    · conv_lhs => rw [← same]
      exact (List.rdropWhile_prefix isSpacing _).length_le
  rw [trim, front] at same
  refine ⟨⟨text.head some, List.head?_eq_some_head some, ?_⟩,
    ⟨text.getLast some, List.getLast?_eq_some_getLast some, ?_⟩⟩
  · cases text with
    | nil => exact absurd rfl some
    | cons c rest => exact Bool.eq_false_iff.mpr (List.dropWhile_eq_self_iff.mp front (by simp))
  · simpa using List.rdropWhile_eq_self_iff.mp same some

theorem element_eq_self_iff {text : List Char} : element text = some text ↔ Bare text := by
  constructor
  · intro same
    rw [element] at same
    split at same
    · cases same
    next visible =>
      refine bare_of_trim_eq ?_ (Option.some.inj same)
      rintro rfl
      exact visible rfl
  · intro bare
    rw [element, bare.not_all, bare.trim_eq]
    rfl

theorem elements_spacing {c : Char} (spacing : isSpacing c = true) (piece : List Char)
    (rest : List (List Char)) : elements ((c :: piece) :: rest) = elements (piece :: rest) := by
  have same : element (c :: piece) = element piece := by
    simp [element, trim, spacing]
  cases rest with
  | nil => simp [elements, same, spacing]
  | cons second rest => simp [elements, same]

/-- Elements and holes between commas, with a comma of its own behind a hole at the end. -/
def listed : List (Option (List Char)) → List Char
  | [] => []
  | [none] => [',']
  | [some text] => text
  | none :: rest => ',' :: ' ' :: listed rest
  | some text :: rest => text ++ ',' :: ' ' :: listed rest

theorem listed_hole_cons {texts : List (Option (List Char))} (more : texts ≠ []) :
    listed (none :: texts) = ',' :: ' ' :: listed texts := by
  rw [listed]
  exact more

theorem listed_text_cons (text : List Char) {texts : List (Option (List Char))}
    (more : texts ≠ []) : listed (some text :: texts) = text ++ ',' :: ' ' :: listed texts := by
  rw [listed]
  exact more

theorem pieces?_comma (rest : List Char) :
    pieces? .outermost (',' :: rest) =
      (pieces? .outermost rest).map fun (pieces, following) => ([] :: pieces, following) := by
  rw [pieces?, if_pos ⟨rfl, rfl⟩]

def readBack : List (Option (List Char)) → List (Option (List Char))
  | [] => []
  | [some text] => elements [text]
  | piece :: rest => element (piece.getD []) :: readBack rest

theorem readBack_cons (piece : Option (List Char)) {texts : List (Option (List Char))}
    (more : texts ≠ []) :
    readBack (piece :: texts) = element (piece.getD []) :: readBack texts := by
  rw [readBack]
  exact fun _ _ => more

/-- Elements are read back exactly if each of them is bare. -/
theorem readBack_eq_self_iff {texts : List (Option (List Char))} :
    readBack texts = texts ↔ ∀ text, some text ∈ texts → Bare text := by
  induction texts with
  | nil => simp [readBack]
  | cons head tail ih =>
      cases tail with
      | nil =>
          cases head with
          | none => simp [readBack, element]
          | some text =>
              have only : (∀ other, some other ∈ [some text] → Bare other) ↔ Bare text := by simp
              rw [only, readBack, elements, ← element_eq_self_iff]
              split
              -- a blank last piece is no element at all
              next blank => simp [element, blank]
              next => rw [List.cons.injEq, and_iff_left rfl]
      | cons second tail =>
          have own : element (head.getD []) = head ↔ ∀ text, head = some text → Bare text := by
            cases head with
            | none => simp [element]
            | some text => simp [element_eq_self_iff]
          rw [readBack_cons head (by simp), List.cons.injEq, ih, own]
          simp only [List.mem_cons (a := some _), forall_and, or_imp, eq_comm]

theorem pieces?_listed {texts : List (Option (List Char))}
    (guarded : ∀ text, some text ∈ texts → Guarded false text) (following : List Char) :
    ∃ first rest, pieces? .outermost (listed texts ++ ']' :: following) =
      some (first :: rest, following) ∧ elements (first :: rest) = readBack texts := by
  have closed : pieces? .outermost (']' :: following) = some ([[]], following) := rfl
  have passed {text : List Char} (guarded : Guarded false text) (rest : List Char) :
      pieces? .outermost (text ++ rest) = (pieces? .outermost rest).map (prepend text) :=
    pieces?_guarded guarded (fun other => nomatch other) rest
  induction texts with
  | nil => exact ⟨[], [], closed, rfl⟩
  | cons head tail ih =>
      have space : Guarded false [' '] := .plain rfl .nil
      cases tail with
      | nil =>
          cases head with
          | none =>
              refine ⟨[], [[]], ?_, rfl⟩
              rw [listed, List.singleton_append, pieces?_comma, closed]
              rfl
          | some text =>
              refine ⟨text, [], ?_, rfl⟩
              rw [listed, passed (guarded text List.mem_cons_self), closed]
              simp [prepend]
      | cons second tail =>
          obtain ⟨first, rest, read, same⟩ := ih
            (fun text member => guarded text (List.mem_cons_of_mem _ member))
          -- the space behind the comma is read in front of the next piece
          have spaced : pieces? .outermost (' ' :: (listed (second :: tail) ++ ']' :: following)) =
              some ((' ' :: first) :: rest, following) := by
            rw [← List.singleton_append, passed space, read]
            rfl
          have counted (piece : List Char) : elements (piece :: (' ' :: first) :: rest) =
              element piece :: readBack (second :: tail) := by
            rw [elements, elements_spacing rfl, same]
            simp
          cases head with
          | none =>
              refine ⟨[], (' ' :: first) :: rest, ?_, ?_⟩
              · rw [listed_hole_cons (by simp), List.cons_append, List.cons_append, pieces?_comma,
                  spaced]
                rfl
              · rw [counted, readBack_cons none (by simp)]
                rfl
          | some text =>
              refine ⟨text, (' ' :: first) :: rest, ?_, ?_⟩
              · rw [listed_text_cons text (by simp), List.append_assoc, List.cons_append,
                  List.cons_append, passed (guarded text List.mem_cons_self), pieces?_comma, spaced]
                simp [prepend]
              · rw [counted, readBack_cons (some text) (by simp)]
                rfl

end ArrayLiteral

theorem arrayLiteral?_listed {texts : List (Option (List Char))}
    (guarded : ∀ text, some text ∈ texts → ArrayLiteral.Guarded false text)
    (following : List Char) :
    arrayLiteral? ('[' :: (ArrayLiteral.listed texts ++ ']' :: following)) =
      some (ArrayLiteral.readBack texts, following) := by
  obtain ⟨first, rest, read, same⟩ := ArrayLiteral.pieces?_listed guarded following
  rw [arrayLiteral?, read, ← same]
  rfl

end Freshen
