import Freshen.Proofs.NameReading

/-!
Tokens, words and lists as the reader takes them: what an expression can start with and what ends
it, the words of the language, numerals, and items divided by commas.
-/

namespace Freshen

open Reading Step

variable {separator : String}

namespace Reading

@[simp] theorem skip?_nil (text : List Char) : skip? [] text = some text := rfl

@[simp] theorem skip?_cons (c : Char) (token text : List Char) :
    skip? (c :: token) (c :: text) = skip? token text := by
  simp [skip?]

theorem skip?_append (token rest : List Char) : skip? token (token ++ rest) = some rest := by
  induction token with
  | nil => rfl
  | cons c token ih => rwa [List.cons_append, skip?_cons]

def isExprChar (c : Char) : Bool := isIdentifierChar c || c == '.' || c == '[' || c == '('

theorem stops_text {content : List Char} (opens : content.head?.any (!isExprChar ·) = true)
    (rest : List Char) : Stops isExprChar (content ++ rest) := by
  cases content with
  | nil => cases opens
  | cons c content => exact Stops.cons (by simpa using opens) _

/-! Words of the language. -/

theorem word_of_keyword : ∀ keyword ∈ Keyword.all,
    keyword.word.toList.all isIdentifierChar = true ∧
      Keyword.ofWord? keyword.word = some keyword := by
  decide

theorem keyword?_append {keyword : Keyword} {rest : List Char} (member : keyword ∈ Keyword.all)
    (stops : Stops isIdentifierChar rest) :
    keyword? (keyword.word.toList ++ rest) = some keyword ∧
      afterWord (keyword.word.toList ++ rest) = rest := by
  obtain ⟨letters, found⟩ := word_of_keyword keyword member
  have plain := List.all_eq_true.mp letters
  refine ⟨?_, afterWord_append plain stops⟩
  rw [keyword?, word_append plain stops, String.ofList_toList, found]

theorem opens_keyword : ∀ keyword ∈ Keyword.all,
    keyword.word.toList.head?.any (fun c => !c.isDigit) = true := by
  decide

theorem opens_of_keyword? {text : List Char} {keyword : Keyword}
    (found : keyword? text = some keyword) :
    ∃ c more, word text = c :: more ∧ c.isDigit = false := by
  rw [keyword?, Keyword.ofWord?] at found
  have same := List.find?_some found
  have opening := opens_keyword keyword (List.mem_of_find?_eq_some found)
  rw [eq_of_beq same, String.toList_ofList] at opening
  cases letters : word text with
  | nil => simp [letters] at opening
  | cons c more => exact ⟨c, more, rfl, by simpa [letters] using opening⟩

variable {inside : Readers}

theorem primary?_word {text more : List Char} {c : Char} (letters : word text = c :: more)
    (letter : c.isDigit = false) :
    primary? separator inside text = worded? separator inside text := by
  rw [primary?, letters]
  simp [letter]

theorem primary?_keyword {text : List Char} {keyword : Keyword}
    (found : keyword? text = some keyword) :
    primary? separator inside text = worded? separator inside text := by
  obtain ⟨c, more, letters, letter⟩ := opens_of_keyword? found
  exact primary?_word letters letter

theorem primary?_symbol {text : List Char} (empty : word text = []) :
    primary? separator inside text = symbol? separator inside text := by
  rw [primary?, empty]

/-! What no expression starts with. -/

variable (separator) in
theorem expr_symbol {c : Char} (rest : List Char) (depth : Nat)
    (symbol : c ∈ [')', ']', ',', ';', ' ', '\n', '\x7b', '\x7d']) :
    (readers separator depth).expr (c :: rest) = none := by
  cases depth with
  | zero => rfl
  | succ depth =>
      simp only [List.mem_cons, List.not_mem_nil, or_false] at symbol
      rcases symbol with rfl | rfl | rfl | rfl | rfl | rfl | rfl | rfl <;> rfl

theorem expr_update (rest : List Char) (depth : Nat) :
    (readers separator depth).expr ('+' :: '+' :: rest) = none ∧
      (readers separator depth).expr ('-' :: '-' :: rest) = none := by
  cases depth with
  | zero => exact ⟨rfl, rfl⟩
  | succ depth => exact ⟨rfl, rfl⟩

def startsExpr : Keyword → Bool
  | .null | .bool _ | .unary _ | .new => true
  | _ => false

theorem expr_keyword {text : List Char} {keyword : Keyword} (depth : Nat)
    (found : keyword? text = some keyword) (other : startsExpr keyword = false) :
    (readers separator depth).expr text = none := by
  cases depth with
  | zero => rfl
  | succ depth =>
      simp only [readers, expr?]
      rw [primary?_keyword found, worded?, found]
      cases keyword <;> first | rfl | cases other

theorem group?_of_expr {depth : Nat} {text rest : List Char} {first : Expr}
    (read : (readers separator depth).expr text = some (first, rest)) :
    group? separator (readers separator depth) text =
      operation? (readers separator depth) first rest := by
  unfold group?
  -- an object literal, an update in front and a function start as no expression does
  split
  · rw [expr_symbol separator _ _ (by decide)] at read
    cases read
  · rw [(expr_update _ _).1] at read
    cases read
  · rw [(expr_update _ _).2] at read
    cases read
  · split
    · rename_i found
      rw [expr_keyword depth found rfl] at read
      cases read
    · rw [read]
      rfl

@[simp] theorem count_readers (separator : String) (depth : Nat) :
    (readers separator depth).count = depth := by
  cases depth <;> rfl

theorem tails?_stop {left : Nat} {expr : Expr} {rest : List Char} (stops : Stops isExprChar rest)
    (some : 0 < left) : tails? inside left expr rest = .some (expr, rest) := by
  cases left with
  | zero => cases some
  | succ left =>
      unfold tails?
      split
      · exact absurd (stops '.' rfl) (by decide)
      · exact absurd (stops '[' rfl) (by decide)
      · exact absurd (stops '(' rfl) (by decide)
      · rfl

end Reading

theorem Stops.word {rest : List Char} (stops : Stops isExprChar rest) :
    Stops isIdentifierChar rest :=
  stops.imp fun c other => by
    simp only [isExprChar, Bool.or_eq_false_iff] at other
    exact other.1.1.1

theorem Stops.point {rest : List Char} (stops : Stops isExprChar rest) : Stops (· == '.') rest :=
  stops.imp fun c other => by
    simp only [isExprChar, Bool.or_eq_false_iff] at other
    exact other.1.1.2

theorem Stops.numeral {rest : List Char} (stops : Stops isIdentifierChar rest)
    (point : Stops (· == '.') rest) : Stops isNumeralChar rest := by
  intro c same
  have letter := stops c same
  have digit : c.isDigit = false := by
    rw [Bool.eq_false_iff]
    intro digit
    rw [isIdentifierChar_of_isDigit digit] at letter
    cases letter
  have small : (c == 'e') = false := by
    rw [beq_eq_false_iff_ne]
    rintro rfl
    exact absurd letter (by decide)
  have capital : (c == 'E') = false := by
    rw [beq_eq_false_iff_ne]
    rintro rfl
    exact absurd letter (by decide)
  have other : (c == '.') = false := point c same
  rw [isNumeralChar, digit, other, small, capital]
  rfl

theorem numeral_written {value : Double} {rest : List Char} (plain : value.isPlain = true)
    (stops : Stops isIdentifierChar rest) (point : Stops (· == '.') rest) :
    Double.read? (value.numeral ++ rest) = some (value, rest) ∧
      ∃ c more, word (value.numeral ++ rest) = c :: more ∧ c.isDigit = true := by
  simp only [Double.isPlain, Bool.and_eq_true, Bool.not_eq_true'] at plain
  obtain ⟨finite, positive⟩ := plain
  refine ⟨Double.read?_numeral finite positive (stops.numeral point), ?_⟩
  obtain ⟨c, more, digits, digit⟩ := Double.numeral_opens finite positive
  refine ⟨c, word (more ++ rest), ?_, digit⟩
  rw [digits, List.cons_append, word, word,
    List.takeWhile_cons_of_pos (isIdentifierChar_of_isDigit digit)]

/-- What the steps write is read as the value, before any text that does not carry on an
expression. -/
def Reads (separator : String) {α : Type} (reader : Reader α) (steps : List Step) (value : α) :
    Prop :=
  ∀ written rest, WritesAll separator steps written → Stops isExprChar rest →
    reader (written ++ rest) = some (value, rest)

/-! Lists. -/

def separated : List (List Step) → List Step
  | [] => []
  | [steps] => steps
  | steps :: rest => steps ++ [.text ", "] ++ separated rest

section Lists

variable {α β : Type} {item : Reader α} {steps : β → List Step} {value : β → α} {items : List β}

theorem several?_separated {count : Nat} {closer : Char} (rest : List Char)
    (closes : closer ∈ [')', '\x7d']) (each : ∀ b ∈ items, Reads separator item (steps b) (value b))
    (some : items ≠ []) (few : items.length ≤ count) {written : List Char}
    (writes : WritesAll separator (separated (items.map steps)) written) :
    several? item count (written ++ closer :: rest) = .some (items.map value, closer :: rest) := by
  induction items generalizing written count with
  | nil => exact absurd rfl some
  | cons first others ih =>
      obtain ⟨count, rfl⟩ : ∃ less, count = less + 1 := ⟨count - 1, by simp at few; omega⟩
      have readFirst := each first List.mem_cons_self
      cases others with
      | nil =>
          simp only [List.mem_cons, List.not_mem_nil, or_false] at closes
          rcases closes with rfl | rfl
          · rw [several?, readFirst written _ writes (Stops.cons rfl _)]
            rfl
          · rw [several?, readFirst written _ writes (Stops.cons rfl _)]
            rfl
      | cons second others =>
          simp only [List.map_cons, separated, List.append_assoc, List.singleton_append,
            writesAll_append, writesAll_text] at writes
          obtain ⟨front, _, writesFirst, ⟨back, writesOthers, rfl⟩, rfl⟩ := writes
          have readOthers := ih (fun b member => each b (List.mem_cons_of_mem _ member))
            (List.cons_ne_nil second others) (Nat.le_of_succ_le_succ few) writesOthers
          rw [List.append_assoc, List.append_assoc, several?,
            readFirst front _ writesFirst (stops_text rfl _)]
          simp [readOthers]

theorem ne_of_read {reader : Reader α} {c : Char} {text : List Char} {result : α × List Char}
    (never : ∀ tail, reader (c :: tail) = none) (read : reader text = some result) :
    ∀ tail, text ≠ c :: tail := by
  rintro tail rfl
  rw [never] at read
  cases read

/-- A list in brackets is read to its closing bracket, which no item starts with. -/
theorem enclosed?_of_read {closer : Char} {list : Reader (List α)} {text rest : List Char}
    {found : List α} (never : ∀ tail, list (closer :: tail) = none)
    (read : list text = some (found, closer :: rest)) :
    enclosed? closer list text = some (found, rest) := by
  have opens : skip? [closer] text = none := by
    cases text with
    | nil => rfl
    | cons c tail =>
        rw [skip?]
        split
        · rename_i same
          exact absurd (by rw [same]) (ne_of_read never read tail)
        · rfl
  rw [enclosed?, opens]
  simp [read]

theorem enclosed?_separated {count : Nat} {closer : Char} (rest : List Char)
    (closes : closer ∈ [')', '\x7d']) (each : ∀ b ∈ items, Reads separator item (steps b) (value b))
    (never : ∀ tail, item (closer :: tail) = none) (few : items.length ≤ count)
    {written : List Char} (writes : WritesAll separator (separated (items.map steps)) written) :
    enclosed? closer (several? item count) (written ++ closer :: rest) =
      some (items.map value, rest) := by
  cases items with
  | nil =>
      rw [List.map_nil, separated, writesAll_nil] at writes
      subst writes
      simp [enclosed?]
  | cons first others =>
      apply enclosed?_of_read _
        (several?_separated rest closes each (List.cons_ne_nil first others) few writes)
      intro tail
      cases count with
      | zero => rfl
      | succ count =>
          rw [several?, never]
          rfl

end Lists

theorem exprsSteps_eq (exprs : List Expr) :
    exprsSteps exprs = separated (exprs.map Expr.steps) := by
  induction exprs with
  | nil => rw [exprsSteps, List.map_nil, separated]
  | cons first others ih =>
      cases others with
      | nil => rw [exprsSteps, List.map_cons, List.map_nil, separated]
      | cons second others => simp [exprsSteps, ih, separated]

theorem propertySteps_eq (properties : List Property) :
    propertySteps properties = separated (properties.map Property.steps) := by
  induction properties with
  | nil => rw [propertySteps, List.map_nil, separated]
  | cons first others ih =>
      cases others with
      | nil => rw [propertySteps, List.map_cons, List.map_nil, separated]
      | cons second others => simp [propertySteps, ih, separated]

theorem erasedExprs_eq (exprs : List Expr) : erasedExprs exprs = exprs.map Expr.erased := by
  induction exprs with
  | nil => rw [erasedExprs, List.map_nil]
  | cons first others ih => rw [erasedExprs, ih, List.map_cons]

theorem erasedProperties_eq (properties : List Property) :
    erasedProperties properties = properties.map Property.erased := by
  induction properties with
  | nil => rw [erasedProperties, List.map_nil]
  | cons first others ih => rw [erasedProperties, ih, List.map_cons]

theorem length_lt_sizeOf {α : Type} [SizeOf α] (items : List α) : items.length < sizeOf items := by
  induction items with
  | nil => simp
  | cons first others ih =>
      simp only [List.length_cons, List.cons.sizeOf_spec]
      omega

end Freshen
