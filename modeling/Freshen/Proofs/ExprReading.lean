import Freshen.Proofs.TokenReading

/-!
Expressions that are read back. An expression of each kind is, if its parts are; functions, which
have statements inside, come with the statements.
-/

namespace Freshen

open Reading Step

variable {separator : String}

theorem Expr.sizeOf_pos (expr : Expr) : 0 < sizeOf expr := by
  apply Nat.pos_of_ne_zero
  intro zero
  cases expr <;> simp at zero

/-- The code of the expression is read as the expression. Property reads and calls after it are
still to be read; of the count of them, less than the size of the expression is used up. -/
def Expr.ReadsBack (separator : String) (expr : Expr) : Prop :=
  ∀ depth written rest, sizeOf expr ≤ depth → WritesAll separator expr.steps written →
    Stops isIdentifierChar rest → (expr.isSelfDelimited = false → Stops (· == '.') rest) →
    ∃ left, depth < left + sizeOf expr ∧
      expr? separator (readers separator depth) (written ++ rest) =
        tails? (readers separator depth) left expr.erased rest

theorem writesAll_parenthesized {steps : List Step} {written : List Char} :
    WritesAll separator (parenthesized steps) written ↔
      ∃ inner, WritesAll separator steps inner ∧ written = '(' :: (inner ++ [')']) := by
  simp [parenthesized]

namespace Expr.ReadsBack

variable {expr : Expr} {written rest : List Char} {depth : Nat}

theorem complete (reads : expr.ReadsBack separator) (depth : Nat) (deep : sizeOf expr < depth) :
    Reads separator (readers separator depth).expr expr.steps expr.erased := by
  intro written rest writes stops
  cases depth with
  | zero => omega
  | succ depth =>
      obtain ⟨left, enough, read⟩ :=
        reads depth written rest (by omega) writes stops.word fun _ => stops.point
      exact read.trans (tails?_stop stops (by omega))

theorem of_primary
    (reads : ∀ depth written rest, sizeOf expr ≤ depth → WritesAll separator expr.steps written →
      Stops isIdentifierChar rest → (expr.isSelfDelimited = false → Stops (· == '.') rest) →
      primary? separator (readers separator depth) (written ++ rest) = some (expr.erased, rest)) :
    expr.ReadsBack separator := by
  intro depth written rest deep writes stops point
  refine ⟨depth, Nat.lt_add_of_pos_right expr.sizeOf_pos, ?_⟩
  rw [expr?, reads depth written rest deep writes stops point, count_readers]
  rfl

theorem of_group {steps : List Step} (shape : expr.steps = Freshen.parenthesized steps)
    (reads : ∀ depth inner rest, sizeOf expr ≤ depth → WritesAll separator steps inner →
      group? separator (readers separator depth) (inner ++ ')' :: rest) =
        some (expr.erased, rest)) :
    expr.ReadsBack separator := by
  apply of_primary
  intro depth written rest deep writes _ _
  rw [shape, writesAll_parenthesized] at writes
  obtain ⟨inner, writes, rfl⟩ := writes
  rw [List.cons_append, List.append_assoc, primary?_symbol rfl]
  exact reads depth inner rest deep writes

theorem parenthesized (reads : expr.ReadsBack separator) (deep : sizeOf expr < depth)
    (writes : WritesAll separator (Freshen.parenthesized expr.steps) written) (rest : List Char) :
    expr? separator (readers separator depth) (written ++ rest) =
      tails? (readers separator depth) depth expr.erased rest := by
  rw [writesAll_parenthesized] at writes
  obtain ⟨inner, writes, rfl⟩ := writes
  have read : (readers separator depth).expr (inner ++ ')' :: rest) =
      some (expr.erased, ')' :: rest) :=
    reads.complete depth deep inner _ writes (Stops.cons rfl _)
  rw [List.cons_append, List.append_assoc, expr?, primary?_symbol rfl, symbol?,
    List.singleton_append, group?_of_expr read, count_readers]
  rfl

theorem asOperand (reads : expr.ReadsBack separator) (depth : Nat) (deep : sizeOf expr < depth)
    (writes : WritesAll separator (expr.asOperand expr.steps) written)
    (stops : Stops isIdentifierChar rest) :
    ∃ left, depth < left + sizeOf expr ∧
      expr? separator (readers separator depth) (written ++ rest) =
        tails? (readers separator depth) left expr.erased rest := by
  rw [Expr.asOperand] at writes
  split at writes
  · rename_i delimited
    exact reads depth written rest (by omega) writes stops (by simp [delimited])
  · exact ⟨depth, Nat.lt_add_of_pos_right expr.sizeOf_pos, reads.parenthesized deep writes rest⟩

theorem asLeft (reads : expr.ReadsBack separator) (op : BinaryOp) (depth : Nat)
    (deep : sizeOf expr + 1 < depth) :
    Reads separator (readers separator depth).expr (expr.asLeft op expr.steps) expr.erased := by
  intro written rest writes stops
  rw [Expr.asLeft] at writes
  split at writes
  · cases depth with
    | zero => omega
    | succ depth =>
        exact (reads.parenthesized (by omega) writes rest).trans (tails?_stop stops (by omega))
  · exact reads.complete depth (by omega) written rest writes stops

end Expr.ReadsBack

/-! Operators. -/

theorem BinaryOp.token_plain (op : BinaryOp) :
    op.token.toList.all (· != ' ') = true ∧ op.token.toList ≠ ['?'] := by
  cases op <;> decide

theorem AssignOp.token_plain (op : AssignOp) :
    op.token.toList.all (· != ' ') = true ∧ op.token.toList ≠ ['?'] := by
  cases op <;> decide

theorem AssignOp.binary_ofToken? (op : AssignOp) : BinaryOp.ofToken? op.token = none := by
  cases op <;> decide

theorem operation?_token {inside : Readers} {first second : Expr} {token written rest : List Char}
    (plain : token.all (· != ' ') = true ∧ token ≠ ['?'])
    (read : inside.expr (written ++ ')' :: rest) = some (second, ')' :: rest)) :
    operation? inside first (' ' :: (token ++ ' ' :: (written ++ ')' :: rest))) =
      (operatorMeaning (String.ofList token) first second).map (·, rest) := by
  generalize written ++ ')' :: rest = tail at read
  have all : ∀ c ∈ token, (c != ' ') = true := List.all_eq_true.mp plain.1
  have front : (token ++ ' ' :: tail).takeWhile (· != ' ') = token :=
    takeWhile_append_stop all (Stops.cons rfl tail)
  have back : (token ++ ' ' :: tail).dropWhile (· != ' ') = ' ' :: tail :=
    dropWhile_append_stop all (Stops.cons rfl tail)
  -- a lone question mark would be read as a conditional
  have apart : ∀ more, token ++ ' ' :: tail ≠ '?' :: ' ' :: more := by
    intro more same
    rcases token with _ | ⟨c, _ | ⟨d, others⟩⟩
    · simp at same
    · simp only [List.cons_append, List.nil_append, List.cons.injEq] at same
      exact plain.2 (by rw [same.1])
    · simp only [List.cons_append, List.cons.injEq] at same
      exact absurd same.2.1 (by simpa using all d (by simp))
  rw [operation?, front, back, skip?_cons, skip?_nil]
  · simp only [Option.bind_eq_bind, Option.bind_some, read, skip?_cons, skip?_nil]
    cases operatorMeaning (String.ofList token) first second <;> rfl
  · exact apart

theorem reads_each {depth : Nat} {exprs : List Expr}
    (each : ∀ expr ∈ exprs, expr.ReadsBack separator) (deep : sizeOf exprs < depth) :
    ∀ expr ∈ exprs, Reads separator (readers separator depth).expr expr.steps expr.erased := by
  intro expr member
  have small := List.sizeOf_lt_of_mem member
  exact (each expr member).complete depth (by omega)

theorem exprs_written {depth : Nat} {exprs : List Expr} {written : List Char}
    (each : ∀ expr ∈ exprs, expr.ReadsBack separator) (some : exprs ≠ [])
    (deep : sizeOf exprs < depth) (writes : WritesAll separator (exprsSteps exprs) written)
    (rest : List Char) :
    (readers separator depth).exprs (written ++ ')' :: rest) =
      .some (erasedExprs exprs, ')' :: rest) := by
  have few := length_lt_sizeOf exprs
  rw [exprsSteps_eq] at writes
  rw [Readers.exprs, count_readers, erasedExprs_eq]
  exact several?_separated rest (by decide) (reads_each each deep) some (by omega) writes

theorem args?_written {args : List Expr} {written : List Char}
    (each : ∀ arg ∈ args, arg.ReadsBack separator) (depth : Nat) (deep : sizeOf args < depth)
    (writes : WritesAll separator (exprsSteps args) written) (rest : List Char) :
    args? (readers separator depth) (written ++ ')' :: rest) = some (erasedExprs args, rest) := by
  have few := length_lt_sizeOf args
  rw [exprsSteps_eq] at writes
  rw [args?, Readers.exprs, count_readers, erasedExprs_eq]
  refine enclosed?_separated rest (by decide) (reads_each each deep) ?_ (by omega) writes
  exact fun tail => expr_symbol separator tail depth (by decide)

/-! Properties. -/

def Property.ReadsBack (separator : String) (property : Property) : Prop :=
  ∀ depth, sizeOf property < depth → Reads separator (property? (readers separator depth).expr)
    property.steps property.erased

theorem propertyName?_written {name : PropertyName} {written : List Char}
    (readable : name.isReadable = true) (writes : WritesAll separator name.steps written)
    (rest : List Char) : propertyName? (written ++ ':' :: rest) = some (name, ':' :: rest) := by
  have stops : Stops isIdentifierChar (':' :: rest) := Stops.cons rfl _
  cases name with
  | ident name =>
      simp only [PropertyName.steps, writesAll_text, writesAll_nil] at writes
      obtain ⟨_, rfl, rfl⟩ := writes
      obtain ⟨letters, c, more, opens, letter⟩ := opens_of_isName readable
      rw [List.append_nil, propertyName?, word_append letters stops, afterWord_append letters stops,
        opens]
      simp [letter, ← opens]
  | string value =>
      simp only [PropertyName.steps, writesAll_text, writesAll_nil, stringLiteral,
        String.toList_append, String.toList_ofList] at writes
      obtain ⟨_, rfl, rfl⟩ := writes
      have text : "\"".toList ++ escape value.toList ++ "\"".toList ++ [] ++ ':' :: rest =
          '"' :: (escape value.toList ++ '"' :: ':' :: rest) := by simp
      have empty : word ('"' :: (escape value.toList ++ '"' :: ':' :: rest)) = [] := rfl
      rw [text, propertyName?, empty]
      simp [quoted?_escape]
  | number value =>
      simp only [PropertyName.steps, writesAll_text, writesAll_nil, String.toList_ofList] at writes
      obtain ⟨_, rfl, rfl⟩ := writes
      have point : Stops (· == '.') (':' :: rest) := Stops.cons rfl _
      obtain ⟨read, c, more, letters, digit⟩ := numeral_written readable stops point
      rw [List.append_nil, propertyName?, letters]
      simp [digit, read]

theorem Property.ReadsBack.named {name : PropertyName} {value : Expr} {shorthand : Bool}
    (readable : name.isReadable = true) (reads : value.ReadsBack separator) :
    (Property.named name value shorthand).ReadsBack separator := by
  intro depth deep written rest writes stops
  simp only [Property.named.sizeOf_spec] at deep
  simp only [Property.steps, List.append_assoc, List.singleton_append, writesAll_append,
    writesAll_text] at writes
  obtain ⟨front, _, writesName, ⟨back, writesValue, rfl⟩, rfl⟩ := writes
  have text : front ++ (": ".toList ++ back) ++ rest = front ++ ':' :: ' ' :: (back ++ rest) := by
    simp
  have readName := propertyName?_written readable writesName (' ' :: (back ++ rest))
  have readValue := reads.complete depth (by omega) back rest writesValue stops
  rw [text, property?, readName]
  · simp [readValue]
  · exact ne_of_read (fun _ => rfl) readName

theorem Property.ReadsBack.computed {key value : Expr} {shorthand : Bool}
    (name : key.ReadsBack separator) (reads : value.ReadsBack separator) :
    (Property.computed key value shorthand).ReadsBack separator := by
  intro depth deep written rest writes stops
  simp only [Property.computed.sizeOf_spec] at deep
  simp only [Property.steps, List.append_assoc, List.cons_append, List.nil_append, writesAll_append,
    writesAll_text] at writes
  obtain ⟨_, ⟨front, _, writesKey, ⟨back, writesValue, rfl⟩, rfl⟩, rfl⟩ := writes
  have text : "[".toList ++ (front ++ ("]: ".toList ++ back)) ++ rest =
      '[' :: (front ++ ']' :: ':' :: ' ' :: (back ++ rest)) := by simp
  have readKey := name.complete depth (by omega) front (']' :: ':' :: ' ' :: (back ++ rest))
    writesKey (Stops.cons rfl _)
  have readValue := reads.complete depth (by omega) back rest writesValue stops
  rw [text, property?, readKey]
  simp [readValue]

section Elements

variable {expr : Reader Expr} {count : Nat}

theorem elements?_written {elements : List (Option Expr)}
    (each : ∀ first, some first ∈ elements → Reads separator expr first.steps first.erased)
    (never : ∀ tail, expr (',' :: tail) = none) (some : elements ≠ [])
    (few : elements.length ≤ count) {written : List Char}
    (writes : WritesAll separator (elementSteps elements) written) (rest : List Char) :
    elements? expr count (written ++ ']' :: rest) =
      .some (erasedElements elements, ']' :: rest) := by
  induction elements generalizing written count with
  | nil => exact absurd rfl some
  | cons element others ih =>
      obtain ⟨count, rfl⟩ : ∃ less, count = less + 1 := ⟨count - 1, by simp at few; omega⟩
      cases others with
      | nil =>
          cases element with
          | none =>
              simp only [elementSteps, writesAll_text, writesAll_nil] at writes
              obtain ⟨_, rfl, rfl⟩ := writes
              simp [elements?]
          | some first =>
              rw [elementSteps] at writes
              have read := each first (by simp) written (']' :: rest) writes (Stops.cons rfl _)
              rw [elements?, read, erasedElements, erasedElements, erasedOptional]
              · rfl
              · exact fun tail => ne_of_read never read _
              · exact ne_of_read never read
      | cons second others =>
          have readOthers : ∀ back, WritesAll separator (elementSteps (second :: others)) back →
              elements? expr count (back ++ ']' :: rest) =
                .some (erasedElements (second :: others), ']' :: rest) := fun back writes =>
            ih (fun first member => each first (by simp [member])) (List.cons_ne_nil second others)
              (Nat.le_of_succ_le_succ few) writes
          cases element with
          | none =>
              simp only [elementSteps, List.singleton_append, writesAll_text] at writes
              obtain ⟨back, writesOthers, rfl⟩ := writes
              simp [elements?, readOthers back writesOthers]
          | some first =>
              simp only [elementSteps, List.append_assoc, List.singleton_append, writesAll_append,
                writesAll_text] at writes
              obtain ⟨front, _, writesFirst, ⟨back, writesOthers, rfl⟩, rfl⟩ := writes
              have read := each first (by simp) front (',' :: ' ' :: (back ++ ']' :: rest))
                writesFirst (Stops.cons rfl _)
              have shape : front ++ (", ".toList ++ back) ++ ']' :: rest =
                  front ++ ',' :: ' ' :: (back ++ ']' :: rest) := by simp
              rw [shape, elements?, read]
              · simp [readOthers back writesOthers]
              · exact fun tail => ne_of_read never read _
              · exact ne_of_read never read

end Elements

namespace Expr.ReadsBack

variable {first second third : Expr} {span : Span}

/-! In parentheses. -/

theorem of_operator {expr : Expr} {steps : List Step} {token : String}
    (shape : expr.steps =
      Freshen.parenthesized (steps ++ [.text (" " ++ token ++ " ")] ++ second.steps))
    (plain : token.toList.all (· != ' ') = true ∧ token.toList ≠ ['?'])
    (means : operatorMeaning token first.erased second.erased = some expr.erased)
    (left : ∀ depth, sizeOf expr ≤ depth →
      Reads separator (readers separator depth).expr steps first.erased)
    (right : second.ReadsBack separator) (smaller : sizeOf second < sizeOf expr) :
    expr.ReadsBack separator := by
  apply of_group shape
  intro depth inner rest deep writes
  simp only [List.append_assoc, List.singleton_append, writesAll_append, writesAll_text] at writes
  obtain ⟨front, _, writesFirst, ⟨back, writesSecond, rfl⟩, rfl⟩ := writes
  have text : front ++ ((" " ++ token ++ " ").toList ++ back) ++ ')' :: rest =
      front ++ ' ' :: (token.toList ++ ' ' :: (back ++ ')' :: rest)) := by simp
  have readFirst := left depth deep front
    (' ' :: (token.toList ++ ' ' :: (back ++ ')' :: rest))) writesFirst (Stops.cons rfl _)
  have readSecond := right.complete depth (by omega) back (')' :: rest) writesSecond
    (Stops.cons rfl _)
  rw [text, group?_of_expr readFirst, operation?_token plain readSecond, String.ofList_toList,
    means]
  rfl

theorem binary (op : BinaryOp) (left : first.ReadsBack separator)
    (right : second.ReadsBack separator) :
    (Expr.binary op first second span).ReadsBack separator := by
  have means : operatorMeaning op.token first.erased second.erased =
      some (Expr.binary op first second span).erased := by
    simp [operatorMeaning, op.ofToken?_token]
  refine of_operator (by rw [Expr.steps]) op.token_plain means ?_ right ?_
  · intro depth deep
    have positive := second.sizeOf_pos
    simp only [Expr.binary.sizeOf_spec] at deep
    exact left.asLeft op depth (by omega)
  · simp only [Expr.binary.sizeOf_spec]
    omega

theorem assign (op : AssignOp) (target : first.ReadsBack separator)
    (value : second.ReadsBack separator) :
    (Expr.assign op first second span).ReadsBack separator := by
  have means : operatorMeaning op.token first.erased second.erased =
      some (Expr.assign op first second span).erased := by
    simp [operatorMeaning, op.binary_ofToken?, op.ofToken?_token]
  refine of_operator (by rw [Expr.steps]) op.token_plain means ?_ value ?_
  · intro depth deep
    simp only [Expr.assign.sizeOf_spec] at deep
    exact target.complete depth (by omega)
  · simp only [Expr.assign.sizeOf_spec]
    omega

theorem conditional (test : first.ReadsBack separator) (consequent : second.ReadsBack separator)
    (alternate : third.ReadsBack separator) :
    (Expr.conditional first second third span).ReadsBack separator := by
  apply of_group (by rw [Expr.steps])
  intro depth inner rest deep writes
  simp only [Expr.conditional.sizeOf_spec] at deep
  simp only [List.append_assoc, List.cons_append, List.nil_append, writesAll_append,
    writesAll_text] at writes
  obtain ⟨front, _, writesFirst, ⟨_, ⟨middle, _, writesSecond, ⟨back, writesThird, rfl⟩, rfl⟩, rfl⟩,
    rfl⟩ := writes
  have readFirst := test.complete depth (by omega) front
    (" ? ".toList ++ (middle ++ (" : ".toList ++ (back ++ ')' :: rest)))) writesFirst
    (stops_text rfl _)
  have readSecond := consequent.complete depth (by omega) middle
    (" : ".toList ++ (back ++ ')' :: rest)) writesSecond (stops_text rfl _)
  have readThird := alternate.complete depth (by omega) back (')' :: rest) writesThird
    (Stops.cons rfl _)
  simp only [List.append_assoc]
  rw [group?_of_expr readFirst]
  simp only [String.reduceToList, List.cons_append, List.nil_append] at readSecond ⊢
  rw [operation?]
  simp [readSecond, readThird]

theorem update (op : UpdateOp) (before : Bool) (arg : first.ReadsBack separator) :
    (Expr.update op before first span).ReadsBack separator := by
  apply of_group (by rw [Expr.steps])
  intro depth inner rest deep writes
  simp only [Expr.update.sizeOf_spec] at deep
  cases before with
  | true =>
      simp only [if_true, List.singleton_append, writesAll_text] at writes
      obtain ⟨back, writes, rfl⟩ := writes
      have read := arg.complete depth (by omega) back (')' :: rest) writes (Stops.cons rfl _)
      cases op with
      | increment => simp [UpdateOp.token, group?, update?, read]
      | decrement => simp [UpdateOp.token, group?, update?, read]
  | false =>
      simp only [Bool.false_eq_true, if_false, writesAll_append, writesAll_text, writesAll_nil]
        at writes
      obtain ⟨front, _, writes, ⟨_, rfl, rfl⟩, rfl⟩ := writes
      have stops : Stops isExprChar (op.token.toList ++ [] ++ ')' :: rest) := by
        cases op with
        | increment => exact stops_text rfl _
        | decrement => exact stops_text rfl _
      have read := arg.complete depth (by omega) front _ writes stops
      rw [List.append_assoc, group?_of_expr read, Expr.erased]
      cases op with
      | increment => rfl
      | decrement => rfl

theorem sequence {others : List Expr} (each : ∀ expr ∈ first :: second :: others,
    expr.ReadsBack separator) :
    (Expr.sequence (first :: second :: others) span).ReadsBack separator := by
  apply of_group (by rw [Expr.steps])
  intro depth inner rest deep writes
  simp only [Expr.sequence.sizeOf_spec, List.cons.sizeOf_spec] at deep
  rw [exprsSteps] at writes
  · simp only [List.append_assoc, List.singleton_append, writesAll_append, writesAll_text] at writes
    obtain ⟨front, _, writesFirst, ⟨back, writesOthers, rfl⟩, rfl⟩ := writes
    have readFirst := (each first (by simp)).complete depth (by omega) front
      (", ".toList ++ (back ++ ')' :: rest)) writesFirst (stops_text rfl _)
    have readOthers : (readers separator depth).exprs (back ++ ')' :: rest) =
        some (erasedExprs (second :: others), ')' :: rest) := by
      refine exprs_written (fun expr member => each expr (List.mem_cons_of_mem _ member)) (by simp)
        ?_ writesOthers rest
      simp only [List.cons.sizeOf_spec]
      omega
    rw [List.append_assoc, List.append_assoc, group?_of_expr readFirst]
    simp [operation?, readOthers]
  · exact List.cons_ne_nil second others

/-! Words and literals. -/

theorem of_word {expr : Expr} {keyword : Keyword} (member : keyword ∈ Keyword.all)
    (shape : expr.steps = [.text keyword.word])
    (means : ∀ inside text, keyword? text = some keyword →
      worded? separator inside text = some (expr.erased, afterWord text)) :
    expr.ReadsBack separator := by
  apply of_primary
  intro depth written rest _ writes stops _
  rw [shape, writesAll_singleton, writes_text] at writes
  subst writes
  obtain ⟨found, after⟩ := keyword?_append member stops
  rw [primary?_keyword found, means _ _ found, after]

theorem null : (Expr.null span).ReadsBack separator := by
  apply of_word (show Keyword.null ∈ Keyword.all by decide) (by rw [Expr.steps, Keyword.word])
  intro inside text found
  rw [worded?, found, Expr.erased]

theorem bool (value : Bool) : (Expr.bool value span).ReadsBack separator := by
  have member : Keyword.bool value ∈ Keyword.all := by cases value <;> decide
  apply of_word member (by rw [Expr.steps, Keyword.word])
  intro inside text found
  rw [worded?, found, Expr.erased]

theorem number {value : Double} (plain : value.isPlain = true) :
    (Expr.number value span).ReadsBack separator := by
  apply of_primary
  intro depth written rest _ writes stops point
  simp only [Expr.steps, writesAll_text, writesAll_nil, String.toList_ofList] at writes
  obtain ⟨_, rfl, rfl⟩ := writes
  obtain ⟨read, c, more, letters, digit⟩ := numeral_written plain stops (point rfl)
  rw [List.append_nil, primary?, letters]
  simp [digit, read]

theorem string (value : String) : (Expr.string value span).ReadsBack separator := by
  apply of_primary
  intro depth written rest _ writes _ _
  simp only [Expr.steps, writesAll_text, writesAll_nil, stringLiteral, String.toList_append,
    String.toList_ofList] at writes
  obtain ⟨_, rfl, rfl⟩ := writes
  have text : "\"".toList ++ escape value.toList ++ "\"".toList ++ [] ++ rest =
      '"' :: (escape value.toList ++ '"' :: rest) := by simp
  rw [text, primary?_symbol rfl, symbol?, quoted?_escape, Expr.erased]
  simp

theorem regex {pattern flags : String} (plain : ∀ c ∈ pattern.toList, (c != '/') = true)
    (letters : ∀ c ∈ flags.toList, isIdentifierChar c = true) :
    (Expr.regex pattern flags span).ReadsBack separator := by
  apply of_primary
  intro depth written rest _ writes stops _
  simp only [Expr.steps, writesAll_text, writesAll_nil] at writes
  obtain ⟨_, rfl, rfl⟩ := writes
  have text : ("/" ++ pattern ++ "/" ++ flags).toList ++ [] ++ rest =
      '/' :: (pattern.toList ++ '/' :: (flags.toList ++ rest)) := by simp
  have slash : Stops (· != '/') ('/' :: (flags.toList ++ rest)) := Stops.cons rfl _
  rw [text, primary?_symbol rfl, symbol?, regex?, takeWhile_append_stop plain slash,
    dropWhile_append_stop plain slash, skip?_cons, skip?_nil]
  simp [word_append letters stops, afterWord_append letters stops]

theorem ident {name : String} (valid : separatorFault? separator = none)
    (plain : isPlainName separator name = true) :
    (Expr.ident name span).ReadsBack separator := by
  apply of_primary
  intro depth written rest _ writes stops _
  have spelled := spelled_of_ident valid plain writes
  obtain ⟨c, more, opens, letter⟩ := spelled.opens
  rw [primary?_word (by rw [spelled.word_eq stops, opens]) letter, worded?,
    spelled.keyword?_eq stops, spelled.name?_eq stops, Expr.erased]
  rfl

theorem array {elements : List (Option Expr)}
    (each : ∀ expr, some expr ∈ elements → expr.ReadsBack separator) :
    (Expr.array elements span).ReadsBack separator := by
  apply of_primary
  intro depth written rest deep writes _ _
  simp only [Expr.array.sizeOf_spec] at deep
  simp only [Expr.steps, List.cons_append, List.nil_append, writesAll_append, writesAll_text,
    writesAll_nil] at writes
  obtain ⟨_, ⟨inner, _, writes, ⟨_, rfl, rfl⟩, rfl⟩, rfl⟩ := writes
  have never (tail : List Char) := expr_symbol (c := ',') separator tail depth (by decide)
  have reads : ∀ expr, some expr ∈ elements →
      Reads separator (readers separator depth).expr expr.steps expr.erased := by
    intro expr member
    have small := List.sizeOf_lt_of_mem member
    simp only [Option.some.sizeOf_spec] at small
    exact (each expr member).complete depth (by omega)
  have few := length_lt_sizeOf elements
  have text : "[".toList ++ (inner ++ ("]".toList ++ [])) ++ rest =
      '[' :: (inner ++ ']' :: rest) := by simp
  rw [text, primary?_symbol rfl, symbol?, array?, count_readers, Expr.erased]
  cases elements with
  | nil =>
      rw [elementSteps, writesAll_nil] at writes
      subst writes
      simp [enclosed?]
  | cons element others =>
      rw [enclosed?_of_read _ (elements?_written reads never (List.cons_ne_nil element others)
        (by omega) writes rest)]
      · rfl
      · intro tail
        cases depth with
        | zero => rfl
        | succ depth =>
            rw [elements?, expr_symbol separator tail _ (by decide)]
            · rfl
            · simp
            · simp

theorem object {properties : List Property}
    (each : ∀ property ∈ properties, property.ReadsBack separator) :
    (Expr.object properties span).ReadsBack separator := by
  apply of_primary
  intro depth written rest deep writes _ _
  simp only [Expr.object.sizeOf_spec] at deep
  simp only [Expr.steps, List.cons_append, List.nil_append, writesAll_append, writesAll_text,
    writesAll_nil, propertySteps_eq] at writes
  obtain ⟨_, ⟨inner, _, writes, ⟨_, rfl, rfl⟩, rfl⟩, rfl⟩ := writes
  have few := length_lt_sizeOf properties
  have reads : ∀ property ∈ properties, Reads separator
      (property? (readers separator depth).expr) property.steps property.erased := by
    intro property member
    have small := List.sizeOf_lt_of_mem member
    exact each property member depth (by omega)
  have text : "(\x7b".toList ++ (inner ++ ("\x7d)".toList ++ [])) ++ rest =
      '(' :: '\x7b' :: (inner ++ '\x7d' :: ')' :: rest) := by simp
  rw [text, primary?_symbol rfl, symbol?, group?, object?, count_readers,
    enclosed?_separated _ (by decide) reads (fun _ => rfl) (by omega) writes, Expr.erased,
    erasedProperties_eq]
  rfl

/-! Operators before an operand. -/

theorem unary (op : UnaryOp) (arg : first.ReadsBack separator) :
    (Expr.unary op first span).ReadsBack separator := by
  apply of_primary
  intro depth written rest deep writes _ _
  simp only [Expr.unary.sizeOf_spec] at deep
  simp only [Expr.steps, List.singleton_append, writesAll_text, writesAll_parenthesized] at writes
  obtain ⟨_, ⟨inner, writes, rfl⟩, rfl⟩ := writes
  have read := arg.complete depth (by omega) inner (')' :: rest) writes (Stops.cons rfl _)
  have operand : operand? (readers separator depth).expr op ('(' :: (inner ++ ')' :: rest)) =
      some ((Expr.unary op first span).erased, rest) := by
    simp [operand?, read]
  have text : op.token.toList ++ '(' :: (inner ++ [')']) ++ rest =
      op.token.toList ++ '(' :: (inner ++ ')' :: rest) := by simp
  have worded (member : Keyword.unary op ∈ Keyword.all) :
      primary? separator (readers separator depth)
        (op.token.toList ++ '(' :: (inner ++ ')' :: rest)) =
          some ((Expr.unary op first span).erased, rest) := by
    have stops : Stops isIdentifierChar ('(' :: (inner ++ ')' :: rest)) := Stops.cons rfl _
    obtain ⟨found, after⟩ := keyword?_append member stops
    rw [Keyword.word] at found after
    rw [primary?_keyword found, worded?, found]
    simp only [after, operand]
  rw [text]
  cases op with
  | minus => exact operand
  | plus => exact operand
  | not => exact operand
  | bitNot => exact operand
  | typeof => exact worded (by decide)
  | void => exact worded (by decide)
  | delete => exact worded (by decide)

theorem asConstructor {written : List Char} (reads : first.ReadsBack separator)
    (valid : separatorFault? separator = none) (readable : first.isReadable separator = true)
    (depth : Nat) (deep : sizeOf first < depth)
    (writes : WritesAll separator (first.asConstructor first.steps) written) (rest : List Char) :
    callee? separator (readers separator depth).expr (written ++ '(' :: rest) =
      some (first.erased, '(' :: rest) := by
  rw [Expr.asConstructor] at writes
  split at writes
  · rename_i named
    obtain ⟨name, span, rfl⟩ : ∃ name span, first = .ident name span := by
      cases first <;> first | exact ⟨_, _, rfl⟩ | cases named
    have spelled := spelled_of_ident valid readable writes
    have stops : Stops isIdentifierChar ('(' :: rest) := Stops.cons rfl _
    have read := spelled.name?_eq stops
    rw [callee?, read, Expr.erased]
    · rfl
    · exact ne_of_read (fun _ => rfl) read
  · rw [writesAll_parenthesized] at writes
    obtain ⟨inner, writes, rfl⟩ := writes
    have read := reads.complete depth deep inner (')' :: '(' :: rest) writes (Stops.cons rfl _)
    rw [List.cons_append, List.append_assoc, callee?, List.singleton_append, read]
    rfl

theorem new {args : List Expr} (valid : separatorFault? separator = none)
    (readable : first.isReadable separator = true) (callee : first.ReadsBack separator)
    (each : ∀ arg ∈ args, arg.ReadsBack separator) :
    (Expr.new first args span).ReadsBack separator := by
  apply of_primary
  intro depth written rest deep writes _ _
  simp only [Expr.new.sizeOf_spec] at deep
  simp only [Expr.steps, List.cons_append, List.nil_append, writesAll_append, writesAll_text,
    writesAll_parenthesized] at writes
  obtain ⟨_, ⟨front, _, writesCallee, ⟨back, writesArgs, rfl⟩, rfl⟩, rfl⟩ := writes
  have text : "new ".toList ++ (front ++ '(' :: (back ++ [')'])) ++ rest =
      Keyword.new.word.toList ++ ' ' :: (front ++ '(' :: (back ++ ')' :: rest)) := by
    simp [Keyword.word]
  have stops : Stops isIdentifierChar (' ' :: (front ++ '(' :: (back ++ ')' :: rest))) :=
    Stops.cons rfl _
  obtain ⟨found, after⟩ := keyword?_append (show Keyword.new ∈ Keyword.all by decide) stops
  have readCallee := callee.asConstructor valid readable depth (by omega) writesCallee
    (back ++ ')' :: rest)
  have readArgs := args?_written each depth (by omega) writesArgs rest
  rw [text, primary?_keyword found, worded?, found]
  simp [after, construction?, readCallee, readArgs]

/-! Property reads and calls. -/

theorem of_tail {object expr : Expr} {steps : List Step}
    (shape : expr.steps = object.asOperand object.steps ++ steps)
    (smaller : sizeOf object < sizeOf expr) (reads : object.ReadsBack separator)
    (carries : ∀ depth left tail rest, sizeOf expr ≤ depth → WritesAll separator steps tail →
      Stops isIdentifierChar rest → Stops isIdentifierChar (tail ++ rest) ∧
        tails? (readers separator depth) (left + 1) object.erased (tail ++ rest) =
          tails? (readers separator depth) left expr.erased rest) :
    expr.ReadsBack separator := by
  intro depth written rest deep writes stops _
  rw [shape, writesAll_append] at writes
  obtain ⟨front, tail, writesObject, writesTail, rfl⟩ := writes
  have opens := (carries depth 0 tail rest deep writesTail stops).1
  obtain ⟨left, enough, read⟩ := reads.asOperand depth (by omega) writesObject opens
  obtain ⟨left, rfl⟩ : ∃ less, left = less + 1 := ⟨left - 1, by omega⟩
  refine ⟨left, by omega, ?_⟩
  rw [List.append_assoc, read]
  exact (carries depth left tail rest deep writesTail stops).2

theorem member {name : String} (named : isName name = true) (object : first.ReadsBack separator) :
    (Expr.member first name span).ReadsBack separator := by
  apply of_tail (by rw [Expr.steps]) _ object
  · intro depth left tail rest _ writes stops
    rw [writesAll_singleton, writes_text] at writes
    subst writes
    have letters := (opens_of_isName named).1
    have text : ("." ++ name).toList ++ rest = '.' :: (name.toList ++ rest) := by simp
    rw [text]
    refine ⟨Stops.cons rfl _, ?_⟩
    rw [tails?, word_append letters stops, afterWord_append letters stops, String.ofList_toList,
      Expr.erased]
  · simp only [Expr.member.sizeOf_spec]
    omega

theorem index (object : first.ReadsBack separator) (property : second.ReadsBack separator) :
    (Expr.index first second span).ReadsBack separator := by
  apply of_tail (by rw [Expr.steps, List.append_assoc, List.append_assoc]) _ object
  · intro depth left tail rest deep writes _
    simp only [Expr.index.sizeOf_spec] at deep
    simp only [List.singleton_append, writesAll_append, writesAll_text, writesAll_nil] at writes
    obtain ⟨_, ⟨back, _, writes, ⟨_, rfl, rfl⟩, rfl⟩, rfl⟩ := writes
    have text : "[".toList ++ (back ++ ("]".toList ++ [])) ++ rest =
        '[' :: (back ++ ']' :: rest) := by simp
    have read := property.complete depth (by omega) back (']' :: rest) writes (Stops.cons rfl _)
    rw [text]
    refine ⟨Stops.cons rfl _, ?_⟩
    rw [tails?, read, Expr.erased]
    simp
  · simp only [Expr.index.sizeOf_spec]
    omega

theorem call {args : List Expr} (callee : first.ReadsBack separator)
    (each : ∀ arg ∈ args, arg.ReadsBack separator) :
    (Expr.call first args span).ReadsBack separator := by
  apply of_tail (by rw [Expr.steps]) _ callee
  · intro depth left tail rest deep writes _
    simp only [Expr.call.sizeOf_spec] at deep
    rw [writesAll_parenthesized] at writes
    obtain ⟨back, writes, rfl⟩ := writes
    have text : '(' :: (back ++ [')']) ++ rest = '(' :: (back ++ ')' :: rest) := by simp
    rw [text]
    refine ⟨Stops.cons rfl _, ?_⟩
    rw [tails?, args?_written each depth (by omega) writes rest, Expr.erased]
    rfl
  · simp only [Expr.call.sizeOf_spec]
    omega

end Expr.ReadsBack

end Freshen
