import Freshen.Proofs.ExprReading

/-!
Functions and statements that are read back. A statement of each kind is, if its parts are and no
`else` follows that it could take for its own.
-/

namespace Freshen

open Reading Step

variable {separator : String}

/-! Parameters. -/

theorem paramSteps_eq (params : List Param) :
    paramSteps params = separated (params.map fun param => [.declare param.name]) := by
  induction params with
  | nil => rfl
  | cons first others ih =>
      cases others with
      | nil => rfl
      | cons second others => simp [paramSteps, ih, separated]

theorem declared_name {name : String} (valid : separatorFault? separator = none)
    (plain : isPlainName separator name = true) :
    Reads separator (name? separator) [.declare name] name := by
  intro written rest writes stops
  rw [writesAll_singleton, Writes] at writes
  exact (writes.spelled valid plain).name?_eq stops.word

theorem params?_written {params : List Param} {count : Nat} {written : List Char}
    (valid : separatorFault? separator = none)
    (plain : ∀ param ∈ params, isPlainName separator param.name = true)
    (few : params.length ≤ count) (writes : WritesAll separator (paramSteps params) written)
    (rest : List Char) :
    params? separator count (written ++ ')' :: rest) =
      some (params.map (⟨·.name, {}⟩), rest) := by
  rw [paramSteps_eq] at writes
  have reads : ∀ param ∈ params,
      Reads separator (name? separator) [.declare param.name] param.name :=
    fun param member => declared_name valid (plain param member)
  rw [params?, enclosed?_separated rest (by decide) reads (fun _ => rfl) few writes]
  simp

/-! Statements on lines of their own. -/

namespace Reading

theorem stmt_symbol {c : Char} (rest : List Char) (depth : Nat) (symbol : c ∈ [' ', '\x7d']) :
    (readers separator depth).stmt (c :: rest) = none := by
  cases depth with
  | zero => rfl
  | succ depth =>
      simp only [List.mem_cons, List.not_mem_nil, or_false] at symbol
      rcases symbol with rfl | rfl
      · exact congrArg (Option.bind · _) (expr_symbol separator rest depth (by decide))
      · exact congrArg (Option.bind · _) (expr_symbol separator rest depth (by decide))

theorem lines?_symbol {c : Char} (rest : List Char) (depth count : Nat)
    (symbol : c ∈ [' ', '\x7d']) :
    lines? (readers separator depth).stmt count (c :: rest) = none := by
  cases count with
  | zero => rfl
  | succ count =>
      rw [lines?, stmt_symbol rest depth symbol]
      rfl

end Reading

/-- The code of the statement is read as the statement, before any text that does not carry on one
with an `else`. -/
def Stmt.ReadsBack (separator : String) (stmt : Stmt) : Prop :=
  ∀ depth written rest, sizeOf stmt < depth → WritesAll separator stmt.steps written →
    (stmt.isBlock = true ∨ skip? " else ".toList rest = none) →
    (readers separator depth).stmt (written ++ rest) = some (stmt.erased, rest)

theorem LineBreak.skip {line rest : List Char} (broken : LineBreak line)
    (apart : ∀ tail, rest ≠ ' ' :: tail) :
    ∃ blanks, line ++ rest = '\n' :: (blanks ++ rest) ∧
      (blanks ++ rest).dropWhile (· == ' ') = rest := by
  obtain ⟨blanks, all, rfl⟩ := broken
  refine ⟨blanks, rfl, dropWhile_append_stop (by simpa using all) ?_⟩
  intro c same
  rw [beq_eq_false_iff_ne]
  rintro rfl
  cases rest with
  | nil => cases same
  | cons c tail =>
      cases same
      exact apart tail rfl

theorem hoistSteps_write {body : List Stmt} {written : List Char}
    (writes : WritesAll separator (hoistSteps body) written) : written = [] := by
  rw [hoistSteps] at writes
  generalize body.filterMap Stmt.hoistedName = names at writes
  induction names generalizing written with
  | nil => simpa using writes
  | cons name names ih =>
      simp only [List.map_cons, writesAll_cons, Writes] at writes
      obtain ⟨_, _, rfl, writes, rfl⟩ := writes
      exact ih writes

theorem lines?_written {depth count : Nat} {first : Stmt} {others : List Stmt}
    {written close : List Char} (each : ∀ stmt ∈ first :: others, stmt.ReadsBack separator)
    (deep : ∀ stmt ∈ first :: others, sizeOf stmt < depth) (few : others.length < count)
    (writes : WritesAll separator (first.steps ++ lineSteps others) written)
    (closes : LineBreak close) (rest : List Char) :
    lines? (readers separator depth).stmt count (written ++ (close ++ '\x7d' :: rest)) =
      some (erasedStmts (first :: others), rest) := by
  induction others generalizing first written count with
  | nil =>
      obtain ⟨count, rfl⟩ : ∃ less, count = less + 1 := ⟨count - 1, by omega⟩
      rw [lineSteps, List.append_nil] at writes
      have apart : ∀ tail, '\x7d' :: rest ≠ ' ' :: tail := by simp
      obtain ⟨blanks, split, dropped⟩ := closes.skip apart
      have read := each first (by simp) depth written ('\n' :: (blanks ++ '\x7d' :: rest))
        (deep first (by simp)) writes (.inr rfl)
      rw [split, lines?, read]
      simp [dropped]
  | cons second others ih =>
      obtain ⟨count, rfl⟩ : ∃ less, count = less + 1 := ⟨count - 1, by omega⟩
      rw [lineSteps, writesAll_append] at writes
      obtain ⟨front, _, writesFirst, writes, rfl⟩ := writes
      rw [List.append_assoc, List.singleton_append, writesAll_newline] at writes
      obtain ⟨line, back, broken, writesOthers, rfl⟩ := writes
      have readOthers := ih (fun stmt member => each stmt (List.mem_cons_of_mem _ member))
        (fun stmt member => deep stmt (List.mem_cons_of_mem _ member))
        (Nat.lt_of_succ_lt_succ few) writesOthers
      -- a statement starts neither with a space nor with a closing brace
      have apart : ∀ c ∈ [' ', '\x7d'], ∀ tail, back ++ (close ++ '\x7d' :: rest) ≠ c :: tail :=
        fun c symbol => ne_of_read (fun tail => lines?_symbol tail depth count symbol) readOthers
      obtain ⟨blanks, split, dropped⟩ := broken.skip (apart ' ' (by decide))
      have read := each first (by simp) depth front
        ('\n' :: (blanks ++ (back ++ (close ++ '\x7d' :: rest)))) (deep first (by simp)) writesFirst
        (.inr rfl)
      rw [List.append_assoc, List.append_assoc, split, lines?, read]
      simp only [Option.bind_eq_bind, Option.bind_some, skip?_cons, skip?_nil, dropped]
      split
      · rename_i same
        exact absurd same (apart '\x7d' (by decide) _)
      · rw [readOthers]
        simp

theorem body?_written {body : List Stmt} {written : List Char}
    (each : ∀ stmt ∈ body, stmt.ReadsBack separator) (depth : Nat) (deep : sizeOf body ≤ depth)
    (writes : WritesAll separator (hoistSteps body ++ bodySteps body) written) (rest : List Char) :
    body? (readers separator depth) (written ++ rest) = some (erasedStmts body, rest) := by
  rw [writesAll_append] at writes
  obtain ⟨_, inner, nothing, writes, rfl⟩ := writes
  rw [hoistSteps_write nothing, List.nil_append]
  cases body with
  | nil =>
      simp only [bodySteps, writesAll_text, writesAll_nil] at writes
      obtain ⟨_, rfl, rfl⟩ := writes
      simp [body?]
  | cons first others =>
      rw [bodySteps, writesAll_singleton, Writes] at writes
      obtain ⟨inside, close, writes, closes, rfl⟩ := writes
      rw [List.append_assoc, List.singleton_append, writesAll_newline] at writes
      obtain ⟨line, back, broken, writes, rfl⟩ := writes
      have few := length_lt_sizeOf others
      have small : ∀ stmt ∈ first :: others, sizeOf stmt < depth := by
        intro stmt member
        have less := List.sizeOf_lt_of_mem member
        omega
      simp only [List.cons.sizeOf_spec] at deep
      have read : lines? (readers separator depth).stmt depth
          (back ++ (close ++ '\x7d' :: rest)) = some (erasedStmts (first :: others), rest) :=
        lines?_written each small (by omega) writes closes rest
      have apart : ∀ tail, back ++ (close ++ '\x7d' :: rest) ≠ ' ' :: tail :=
        ne_of_read (fun tail => lines?_symbol tail depth depth (by decide)) read
      obtain ⟨blanks, split, dropped⟩ := broken.skip apart
      have text : '\x7b' :: (line ++ back ++ (close ++ ['\x7d'])) ++ rest =
          '\x7b' :: '\n' :: (blanks ++ (back ++ (close ++ '\x7d' :: rest))) := by
        rw [← split]
        simp
      rw [text, body?, dropped, count_readers, read]

/-! Functions. -/

theorem group?_function {inside : Readers} {rest : List Char}
    (stops : Stops isIdentifierChar rest) :
    group? separator inside ("function".toList ++ rest) = function? separator inside rest := by
  obtain ⟨found, after⟩ := keyword?_append (show Keyword.function ∈ Keyword.all by decide) stops
  rw [Keyword.word] at found after
  obtain ⟨c, more, letters, letter⟩ := opens_of_keyword? found
  generalize "function".toList ++ rest = text at found after letters
  unfold group?
  split
  · cases letters
  · cases letters
  · cases letters
  · rw [found, after]

theorem functionHead?_written (name : Option String) {params : List Param} {count : Nat}
    {written : List Char} (valid : separatorFault? separator = none)
    (named : ∀ given ∈ name, isPlainName separator given = true)
    (plain : ∀ param ∈ params, isPlainName separator param.name = true)
    (few : params.length ≤ count)
    (writes : WritesAll separator (functionHead name ++ parenthesized (paramSteps params)) written)
    (rest : List Char) :
    ∃ tail, written ++ ' ' :: rest = "function".toList ++ tail ∧ Stops isIdentifierChar tail ∧
      functionHead? separator count tail = some (name, params.map (⟨·.name, {}⟩), rest) := by
  rw [writesAll_append] at writes
  obtain ⟨head, _, writesHead, writes, rfl⟩ := writes
  rw [writesAll_parenthesized] at writes
  obtain ⟨list, writes, rfl⟩ := writes
  have readParams := params?_written valid plain few writes (' ' :: rest)
  cases name with
  | none =>
      simp only [functionHead, writesAll_text, writesAll_nil] at writesHead
      obtain ⟨_, rfl, rfl⟩ := writesHead
      refine ⟨'(' :: (list ++ ')' :: ' ' :: rest), by simp, Stops.cons rfl _, ?_⟩
      simp [functionHead?, readParams]
  | some given =>
      simp only [functionHead, writesAll_text, writesAll_declare, writesAll_nil] at writesHead
      obtain ⟨_, ⟨spelling, _, numbered, rfl, rfl⟩, rfl⟩ := writesHead
      have opens : Stops isIdentifierChar ('(' :: (list ++ ')' :: ' ' :: rest)) := Stops.cons rfl _
      have readName := (numbered.spelled valid (named given rfl)).name?_eq opens
      refine ⟨' ' :: (spelling ++ '(' :: (list ++ ')' :: ' ' :: rest)), by simp,
        Stops.cons rfl _, ?_⟩
      simp [functionHead?, readName, readParams]

namespace Expr.ReadsBack

variable {span inner : Span} {params : List Param}

theorem function {name : Option String} {body : List Stmt}
    (valid : separatorFault? separator = none)
    (named : ∀ given ∈ name, isPlainName separator given = true)
    (plain : ∀ param ∈ params, isPlainName separator param.name = true)
    (each : ∀ stmt ∈ body, stmt.ReadsBack separator) :
    (Expr.function name params body inner span).ReadsBack separator := by
  apply of_group (by rw [Expr.steps])
  intro depth text rest deep writes
  simp only [Expr.function.sizeOf_spec] at deep
  have few := length_lt_sizeOf params
  rw [writesAll_framed, List.append_nil, List.append_assoc, List.append_assoc _ [Step.text " "],
    List.singleton_append, writesAll_append] at writes
  obtain ⟨front, _, writesHead, writes, rfl⟩ := writes
  rw [writesAll_text] at writes
  obtain ⟨back, writesBody, rfl⟩ := writes
  have readBody := body?_written each depth (by omega) writesBody (')' :: rest)
  obtain ⟨tail, split, stops, readHead⟩ := functionHead?_written name valid named plain
    (show params.length ≤ depth by omega) writesHead (back ++ ')' :: rest)
  have shape : front ++ (" ".toList ++ back) ++ ')' :: rest =
      front ++ ' ' :: (back ++ ')' :: rest) := by simp
  have apart : ∀ more, back ++ ')' :: rest ≠ '\x7b' :: ' ' :: more := by
    intro more same
    rw [same] at readBody
    cases readBody
  rw [shape, split, group?_function stops, function?, count_readers, readHead]
  simp only [Option.bind_eq_bind, Option.bind_some]
  rw [functionBody?, readBody]
  · simp
  · exact apart

theorem arrow {result : Expr} (valid : separatorFault? separator = none)
    (plain : ∀ param ∈ params, isPlainName separator param.name = true)
    (reads : result.ReadsBack separator) :
    (Expr.arrow params result inner span).ReadsBack separator := by
  apply of_group (by rw [Expr.steps])
  intro depth text rest deep writes
  simp only [Expr.arrow.sizeOf_spec] at deep
  have few := length_lt_sizeOf params
  rw [writesAll_framed, List.append_nil, List.append_assoc, List.append_assoc _ [Step.text _],
    List.singleton_append, writesAll_append] at writes
  obtain ⟨front, _, writesHead, writes, rfl⟩ := writes
  simp only [writesAll_append, writesAll_text, writesAll_nil] at writes
  obtain ⟨_, ⟨back, _, writesResult, ⟨_, rfl, rfl⟩, rfl⟩, rfl⟩ := writes
  have readResult := reads.complete depth (by omega) back ("; \x7d".toList ++ ')' :: rest)
    writesResult (stops_text rfl _)
  obtain ⟨tail, split, stops, readHead⟩ := functionHead?_written none valid (by simp) plain
    (show params.length ≤ depth by omega) writesHead
    ('\x7b' :: ' ' :: ("return ".toList ++ (back ++ ("; \x7d".toList ++ ')' :: rest))))
  have shape : front ++ (" \x7b return ".toList ++ (back ++ ("; \x7d".toList ++ []))) ++
      ')' :: rest = front ++ ' ' :: '\x7b' :: ' ' ::
        ("return ".toList ++ (back ++ ("; \x7d".toList ++ ')' :: rest))) := by simp
  rw [shape, split, group?_function stops, function?, count_readers, readHead]
  simp only [Option.bind_eq_bind, Option.bind_some]
  rw [functionBody?, skip?_append]
  simp only [Option.bind_eq_bind, Option.bind_some, readResult, skip?_append]
  simp

end Expr.ReadsBack

/-! Statements. -/

theorem stmt?_keyword {inside : Readers} {keyword : Keyword} {reader : Reader Stmt}
    {rest : List Char} (member : keyword ∈ Keyword.all)
    (opens : opened? separator inside keyword = some reader)
    (stops : Stops isIdentifierChar rest) :
    stmt? separator inside (keyword.word.toList ++ rest) = reader rest := by
  obtain ⟨found, after⟩ := keyword?_append member stops
  obtain ⟨c, more, letters, letter⟩ := opens_of_keyword? found
  generalize keyword.word.toList ++ rest = text at found after letters
  unfold stmt?
  split
  · cases letters
  · cases letters
  · rw [found, Option.bind_some, opens, after]

/-- A statement that is an expression is told from the others by its first word. -/
theorem stmt?_of_expr {depth : Nat} {text rest : List Char} {value : Expr}
    (read : (readers separator depth).expr text = some (value, ';' :: rest)) :
    stmt? separator (readers separator depth) text = some (.expr value {}, rest) := by
  have other : (keyword? text).bind (opened? separator (readers separator depth)) = none := by
    cases found : keyword? text with
    | none => rfl
    | some keyword =>
        cases starts : startsExpr keyword with
        | false =>
            -- all words that open a statement are among these
            rw [expr_keyword depth found starts] at read
            cases read
        | true => cases keyword <;> first | rfl | cases starts
  unfold stmt?
  split
  · rw [expr_symbol separator _ _ (by decide)] at read
    cases read
  · rw [expr_symbol separator _ _ (by decide)] at read
    cases read
  · rw [other, read]
    rfl

theorem declarator?_written {kind : DeclKind} {span place : Span} {name : String}
    {init : Option Expr} {written : List Char} (valid : separatorFault? separator = none)
    (plain : isPlainName separator name = true)
    (reads : ∀ value ∈ init, value.ReadsBack separator) (depth : Nat) (deep : sizeOf init < depth)
    (writes : WritesAll separator (declSteps kind span [.mk name init place]) written)
    (rest : List Char) :
    ∃ tail, written ++ ';' :: rest = (Keyword.group kind).word.toList ++ ' ' :: tail ∧
      declarator? separator (readers separator depth).expr (' ' :: tail) =
        some (.mk name (erasedOptional init) {}, ';' :: rest) := by
  cases init with
  | none =>
      simp only [declSteps, writesAll_text, writesAll_declare, writesAll_nil] at writes
      obtain ⟨_, ⟨spelling, _, numbered, rfl, rfl⟩, rfl⟩ := writes
      have ends : Stops isIdentifierChar (';' :: rest) := Stops.cons rfl _
      have readName := (numbered.spelled valid plain).name?_eq ends
      refine ⟨spelling ++ ';' :: rest, by simp [Keyword.word], ?_⟩
      simp [declarator?, readName, skip?]
  | some value =>
      simp only [declSteps, List.cons_append, List.nil_append, writesAll_text, writesAll_declare]
        at writes
      obtain ⟨_, ⟨spelling, _, numbered, ⟨back, writes, rfl⟩, rfl⟩, rfl⟩ := writes
      simp only [Option.some.sizeOf_spec] at deep
      have ends : Stops isIdentifierChar (" = ".toList ++ (back ++ ';' :: rest)) :=
        (stops_text rfl _).word
      have readName := (numbered.spelled valid plain).name?_eq ends
      have readValue := (reads value rfl).complete depth (by omega) back (';' :: rest) writes
        (Stops.cons rfl _)
      refine ⟨spelling ++ (" = ".toList ++ (back ++ ';' :: rest)), by simp [Keyword.word], ?_⟩
      rw [declarator?, skip?_cons, skip?_nil]
      simp only [Option.bind_eq_bind, Option.bind_some, readName, skip?_append, readValue]
      rfl

theorem optional?_written {value : Option Expr} {written : List Char} {c : Char}
    (closes : c ∈ [';', ')']) (reads : ∀ expr ∈ value, expr.ReadsBack separator) (depth : Nat)
    (deep : sizeOf value < depth) (writes : WritesAll separator (optionalSteps value) written)
    (rest : List Char) :
    optional? (readers separator depth).expr (written ++ c :: rest) =
      some (erasedOptional value, c :: rest) := by
  have stops : Stops isExprChar (c :: rest) := by
    simp only [List.mem_cons, List.not_mem_nil, or_false] at closes
    rcases closes with rfl | rfl
    · exact Stops.cons rfl _
    · exact Stops.cons rfl _
  cases value with
  | none =>
      rw [optionalSteps, writesAll_nil] at writes
      subst writes
      rw [List.nil_append, optional?, erasedOptional]
      rintro tail same
      cases same
      exact absurd closes (by decide)
  | some expr =>
      rw [optionalSteps, List.singleton_append, writesAll_text] at writes
      obtain ⟨inner, writes, rfl⟩ := writes
      simp only [Option.some.sizeOf_spec] at deep
      have read := (reads expr rfl).complete depth (by omega) inner (c :: rest) writes stops
      simp [optional?, read]

theorem mem_group (kind : DeclKind) : Keyword.group kind ∈ Keyword.all := by
  cases kind <;> decide

def testSteps (keyword : Keyword) (test : Expr) : List Step :=
  .text (keyword.word ++ " (") :: (test.steps ++ [.text ") "])

theorem Expr.ReadsBack.testSteps_written {keyword : Keyword} {test : Expr} {steps : List Step}
    {written : List Char} (condition : test.ReadsBack separator) (depth : Nat)
    (deep : sizeOf test < depth)
    (writes : WritesAll separator (testSteps keyword test ++ steps) written) (rest : List Char) :
    ∃ front back, WritesAll separator steps back ∧
      written ++ rest = keyword.word.toList ++
        (" (".toList ++ (front ++ (") ".toList ++ (back ++ rest)))) ∧
      (readers separator depth).expr (front ++ (") ".toList ++ (back ++ rest))) =
        some (test.erased, ") ".toList ++ (back ++ rest)) := by
  simp only [testSteps, List.cons_append, List.append_assoc, List.nil_append, writesAll_append,
    writesAll_text] at writes
  obtain ⟨_, ⟨front, _, writesTest, ⟨back, writes, rfl⟩, rfl⟩, rfl⟩ := writes
  refine ⟨front, back, writes, by simp, ?_⟩
  exact condition.complete depth deep front (") ".toList ++ (back ++ rest)) writesTest
    (stops_text rfl _)

def LoopInit.ReadsBack (separator : String) (init : LoopInit) : Prop :=
  ∀ depth span written rest, sizeOf init < depth → WritesAll separator (init.steps span) written →
    loopInit? separator (readers separator depth).expr (written ++ ';' :: rest) =
      some (init.erased, ';' :: rest)

namespace LoopInit.ReadsBack

theorem absent : LoopInit.absent.ReadsBack separator := by
  intro depth span written rest _ writes
  rw [LoopInit.steps, writesAll_nil] at writes
  subst writes
  rfl

theorem decl (kind : DeclKind) {name : String} {init : Option Expr} {place : Span}
    (valid : separatorFault? separator = none) (plain : isPlainName separator name = true)
    (reads : ∀ value ∈ init, value.ReadsBack separator) :
    (LoopInit.decl kind [.mk name init place]).ReadsBack separator := by
  intro depth span written rest deep writes
  simp only [LoopInit.decl.sizeOf_spec, List.cons.sizeOf_spec, Declarator.mk.sizeOf_spec] at deep
  rw [LoopInit.steps] at writes
  obtain ⟨tail, text, read⟩ := declarator?_written valid plain reads depth (by omega) writes rest
  have stops : Stops isIdentifierChar (' ' :: tail) := Stops.cons rfl _
  obtain ⟨found, after⟩ := keyword?_append (mem_group kind) stops
  obtain ⟨c, more, letters, -⟩ := opens_of_keyword? found
  rw [text]
  generalize (Keyword.group kind).word.toList ++ ' ' :: tail = text at found after letters
  unfold loopInit?
  split
  · cases letters
  · rw [found, after]
    simp [read]

theorem expr {value : Expr} (reads : value.ReadsBack separator) :
    (LoopInit.expr value).ReadsBack separator := by
  intro depth span written rest deep writes
  simp only [LoopInit.expr.sizeOf_spec] at deep
  rw [LoopInit.steps] at writes
  have read := reads.complete depth (by omega) written (';' :: rest) writes (Stops.cons rfl _)
  unfold loopInit?
  split
  · rename_i opens
    rw [opens, expr_symbol separator _ _ (by decide)] at read
    cases read
  · split
    · rename_i found
      rw [expr_keyword depth found rfl] at read
      cases read
    · rw [read]
      simp

end LoopInit.ReadsBack

namespace Stmt.ReadsBack

variable {span : Span} {test : Expr} {body consequent alternate : Stmt}

theorem of_stmt? {stmt : Stmt} (reads : ∀ depth written rest, sizeOf stmt ≤ depth →
      WritesAll separator stmt.steps written →
      (stmt.isBlock = true ∨ skip? " else ".toList rest = none) →
      stmt? separator (readers separator depth) (written ++ rest) = some (stmt.erased, rest)) :
    stmt.ReadsBack separator := by
  intro depth written rest deep writes other
  cases depth with
  | zero => omega
  | succ depth => exact reads depth written rest (by omega) writes other

theorem var (kind : DeclKind) {name : String} {init : Option Expr} {place : Span}
    (valid : separatorFault? separator = none) (plain : isPlainName separator name = true)
    (reads : ∀ value ∈ init, value.ReadsBack separator) :
    (Stmt.var kind [.mk name init place] span).ReadsBack separator := by
  apply of_stmt?
  intro depth written rest deep writes _
  simp only [Stmt.var.sizeOf_spec, List.cons.sizeOf_spec, Declarator.mk.sizeOf_spec] at deep
  simp only [Stmt.steps, writesAll_append, writesAll_text, writesAll_nil] at writes
  obtain ⟨front, _, writes, ⟨_, rfl, rfl⟩, rfl⟩ := writes
  obtain ⟨tail, text, read⟩ := declarator?_written valid plain reads depth (by omega) writes rest
  have shape : front ++ (";".toList ++ []) ++ rest = front ++ ';' :: rest := by simp
  rw [shape, text, stmt?_keyword (mem_group kind) rfl (Stops.cons rfl _), read]
  simp

theorem function {name : String} {params : List Param} {body : List Stmt} {inner : Span}
    (valid : separatorFault? separator = none) (named : isPlainName separator name = true)
    (plain : ∀ param ∈ params, isPlainName separator param.name = true)
    (each : ∀ stmt ∈ body, stmt.ReadsBack separator) :
    (Stmt.function (some name) params body inner span).ReadsBack separator := by
  apply of_stmt?
  intro depth written rest deep writes _
  simp only [Stmt.function.sizeOf_spec] at deep
  have few := length_lt_sizeOf params
  have split : (Stmt.function (some name) params body inner span).steps =
      functionHead (some name) ++ [.framed (parenthesized (paramSteps params) ++
        ([.text " "] ++ (hoistSteps body ++ bodySteps body)))] := by
    simp [Stmt.steps]
  rw [split, writesAll_append] at writes
  obtain ⟨head, _, writesName, writes, rfl⟩ := writes
  rw [writesAll_framed, List.append_nil, writesAll_append] at writes
  obtain ⟨list, _, writesParams, writes, rfl⟩ := writes
  rw [List.singleton_append, writesAll_text] at writes
  obtain ⟨back, writesBody, rfl⟩ := writes
  have writesHead := writesAll_append.mpr ⟨head, list, writesName, writesParams, rfl⟩
  have readBody := body?_written each depth (by omega) writesBody rest
  obtain ⟨tail, text, stops, readHead⟩ := functionHead?_written (some name) valid
    (by simpa using named) plain (show params.length ≤ depth by omega) writesHead (back ++ rest)
  have shape : head ++ (list ++ (" ".toList ++ back)) ++ rest =
      head ++ list ++ ' ' :: (back ++ rest) := by simp
  rw [shape, text]
  refine (stmt?_keyword (show Keyword.function ∈ Keyword.all by decide) rfl stops).trans ?_
  simp [readHead, readBody]

theorem block {body : List Stmt} (each : ∀ stmt ∈ body, stmt.ReadsBack separator) :
    (Stmt.block body span).ReadsBack separator := by
  apply of_stmt?
  intro depth written rest deep writes _
  simp only [Stmt.block.sizeOf_spec] at deep
  rw [Stmt.steps, writesAll_framed, List.append_nil] at writes
  have read := body?_written each depth (by omega) writes rest
  obtain ⟨tail, opens⟩ : ∃ tail, written ++ rest = '\x7b' :: tail := by
    unfold body? at read
    split at read
    · exact ⟨_, by assumption⟩
    · exact ⟨_, by assumption⟩
    · cases read
  rw [opens] at read ⊢
  rw [stmt?, read]
  simp

theorem whileLoop (condition : test.ReadsBack separator) (reads : body.ReadsBack separator) :
    (Stmt.whileLoop test body span).ReadsBack separator := by
  apply of_stmt?
  intro depth written rest deep writes other
  simp only [Stmt.whileLoop.sizeOf_spec] at deep
  have shape : (Stmt.whileLoop test body span).steps = testSteps .whileLoop test ++ body.steps := by
    rw [Stmt.steps]
    rfl
  rw [shape] at writes
  obtain ⟨front, back, writesBody, text, readTest⟩ :=
    condition.testSteps_written depth (by omega) writes rest
  have readBody := reads depth back rest (by omega) writesBody
    (.inr (other.resolve_left Bool.false_ne_true))
  rw [text]
  refine (stmt?_keyword (by decide) rfl (stops_text rfl _).word).trans ?_
  simp only [skip?_append, readTest, readBody, Option.bind_eq_bind, Option.bind_some]
  simp

theorem doWhile (reads : body.ReadsBack separator) (condition : test.ReadsBack separator) :
    (Stmt.doWhile body test span).ReadsBack separator := by
  apply of_stmt?
  intro depth written rest deep writes _
  simp only [Stmt.doWhile.sizeOf_spec] at deep
  simp only [Stmt.steps, List.append_assoc, List.cons_append, List.nil_append, writesAll_append,
    writesAll_text, writesAll_nil] at writes
  obtain ⟨_, ⟨front, _, writesBody, ⟨_, ⟨back, _, writesTest, ⟨_, rfl, rfl⟩, rfl⟩, rfl⟩, rfl⟩,
    rfl⟩ := writes
  have text : "do ".toList ++ (front ++ (" while (".toList ++ (back ++ (");".toList ++ [])))) ++
      rest = Keyword.doWhile.word.toList ++
        ' ' :: (front ++ (" while (".toList ++ (back ++ (");".toList ++ rest)))) := by
    simp [Keyword.word]
  have readBody := reads depth front (" while (".toList ++ (back ++ (");".toList ++ rest)))
    (by omega) writesBody (.inr rfl)
  have readTest := condition.complete depth (by omega) back (");".toList ++ rest) writesTest
    (stops_text rfl _)
  rw [text]
  refine (stmt?_keyword (by decide) rfl (Stops.cons rfl _)).trans ?_
  simp only [skip?_cons, skip?_nil, skip?_append, readTest, readBody, Option.bind_eq_bind,
    Option.bind_some]
  simp

theorem cond (condition : test.ReadsBack separator) (reads : consequent.ReadsBack separator) :
    (Stmt.cond test consequent none span).ReadsBack separator := by
  apply of_stmt?
  intro depth written rest deep writes other
  simp only [Stmt.cond.sizeOf_spec] at deep
  have shape : (Stmt.cond test consequent none span).steps =
      testSteps .cond test ++ consequent.steps := by
    rw [Stmt.steps]
    rfl
  rw [shape] at writes
  obtain ⟨front, back, writesBody, text, readTest⟩ :=
    condition.testSteps_written depth (by omega) writes rest
  have apart := other.resolve_left Bool.false_ne_true
  have readBody := reads depth back rest (by omega) writesBody (.inr apart)
  rw [text]
  refine (stmt?_keyword (by decide) rfl (stops_text rfl _).word).trans ?_
  simp only [skip?_append, readTest, readBody, apart, Option.bind_eq_bind, Option.bind_some]
  simp

theorem condElse (condition : test.ReadsBack separator) (isBlock : consequent.isBlock = true)
    (reads : consequent.ReadsBack separator) (readsElse : alternate.ReadsBack separator) :
    (Stmt.cond test consequent (some alternate) span).ReadsBack separator := by
  apply of_stmt?
  intro depth written rest deep writes other
  simp only [Stmt.cond.sizeOf_spec, Option.some.sizeOf_spec] at deep
  have shape : (Stmt.cond test consequent (some alternate) span).steps = testSteps .cond test ++
      (consequent.steps ++ .text " else " :: alternate.steps) := by
    simp [Stmt.steps, isBlock, testSteps, Keyword.word]
  rw [shape] at writes
  obtain ⟨front, back, writes, text, readTest⟩ :=
    condition.testSteps_written depth (by omega) writes rest
  rw [writesAll_append] at writes
  obtain ⟨middle, _, writesBody, writes, rfl⟩ := writes
  rw [writesAll_text] at writes
  obtain ⟨last, writesElse, rfl⟩ := writes
  rw [List.append_assoc, List.append_assoc] at text readTest
  have readBody := reads depth middle (" else ".toList ++ (last ++ rest)) (by omega) writesBody
    (.inl isBlock)
  have readElse := readsElse depth last rest (by omega) writesElse
    (.inr (other.resolve_left Bool.false_ne_true))
  rw [text]
  refine (stmt?_keyword (by decide) rfl (stops_text rfl _).word).trans ?_
  simp only [skip?_append, readTest, readBody, readElse, Option.bind_eq_bind, Option.bind_some]
  simp

theorem of_word {stmt : Stmt} {keyword : Keyword} (member : keyword ∈ Keyword.all)
    (shape : stmt.steps = [.text (keyword.word ++ ";")])
    (opens : ∀ inside, opened? separator inside keyword =
      some fun text => (skip? [';'] text).map (stmt.erased, ·)) : stmt.ReadsBack separator := by
  apply of_stmt?
  intro depth written rest _ writes _
  rw [shape, writesAll_singleton, writes_text] at writes
  have text : written ++ rest = keyword.word.toList ++ ';' :: rest := by simp [writes]
  rw [text, stmt?_keyword member (opens _) (Stops.cons rfl _)]
  simp

theorem exitLoop : (Stmt.exitLoop span).ReadsBack separator :=
  of_word (show Keyword.exitLoop ∈ Keyword.all by decide) (by rw [Stmt.steps]; rfl) fun _ => rfl

theorem nextLoop : (Stmt.nextLoop span).ReadsBack separator :=
  of_word (show Keyword.nextLoop ∈ Keyword.all by decide) (by rw [Stmt.steps]; rfl) fun _ => rfl

theorem throw (reads : test.ReadsBack separator) : (Stmt.throw test span).ReadsBack separator := by
  apply of_stmt?
  intro depth written rest deep writes _
  simp only [Stmt.throw.sizeOf_spec] at deep
  simp only [Stmt.steps, List.cons_append, List.nil_append, writesAll_append, writesAll_text,
    writesAll_nil] at writes
  obtain ⟨_, ⟨front, _, writes, ⟨_, rfl, rfl⟩, rfl⟩, rfl⟩ := writes
  have text : "throw ".toList ++ (front ++ (";".toList ++ [])) ++ rest =
      Keyword.throw.word.toList ++ ' ' :: (front ++ ';' :: rest) := by simp [Keyword.word]
  have read := reads.complete depth (by omega) front (';' :: rest) writes (Stops.cons rfl _)
  rw [text]
  refine (stmt?_keyword (by decide) rfl (Stops.cons rfl _)).trans ?_
  simp [read]

theorem expr (reads : test.ReadsBack separator) : (Stmt.expr test span).ReadsBack separator := by
  apply of_stmt?
  intro depth written rest deep writes _
  simp only [Stmt.expr.sizeOf_spec] at deep
  simp only [Stmt.steps, writesAll_append, writesAll_text, writesAll_nil] at writes
  obtain ⟨front, _, writes, ⟨_, rfl, rfl⟩, rfl⟩ := writes
  have text : front ++ (";".toList ++ []) ++ rest = front ++ ';' :: rest := by simp
  have read := reads.complete depth (by omega) front (';' :: rest) writes (Stops.cons rfl _)
  rw [text, stmt?_of_expr read, Stmt.erased]

theorem empty : (Stmt.empty span).ReadsBack separator := by
  apply of_stmt?
  intro depth written rest deep writes _
  simp only [Stmt.steps, writesAll_text, writesAll_nil] at writes
  obtain ⟨_, rfl, rfl⟩ := writes
  rfl

theorem ret {arg : Option Expr} (reads : ∀ expr ∈ arg, expr.ReadsBack separator) :
    (Stmt.ret arg span).ReadsBack separator := by
  apply of_stmt?
  intro depth written rest deep writes _
  simp only [Stmt.ret.sizeOf_spec] at deep
  have split : ∃ inner, WritesAll separator (optionalSteps arg) inner ∧
      Stops isIdentifierChar (inner ++ ';' :: rest) ∧
      written ++ rest = Keyword.ret.word.toList ++ (inner ++ ';' :: rest) := by
    cases arg with
    | none =>
        simp only [Stmt.steps, writesAll_text, writesAll_nil] at writes
        obtain ⟨_, rfl, rfl⟩ := writes
        exact ⟨[], by simp [optionalSteps], Stops.cons rfl _, by simp [Keyword.word]⟩
    | some expr =>
        simp only [Stmt.steps, List.cons_append, List.nil_append, writesAll_append, writesAll_text,
          writesAll_nil] at writes
        obtain ⟨_, ⟨front, _, writes, ⟨_, rfl, rfl⟩, rfl⟩, rfl⟩ := writes
        refine ⟨' ' :: front, ?_, Stops.cons rfl _, by simp [Keyword.word]⟩
        rw [optionalSteps, List.singleton_append, writesAll_text]
        exact ⟨front, writes, rfl⟩
  obtain ⟨inner, writes, stops, text⟩ := split
  have read := optional?_written (show ';' ∈ [';', ')'] by decide) reads depth (by omega) writes
    rest
  rw [text]
  refine (stmt?_keyword (by decide) rfl stops).trans ?_
  simp [read]

theorem loop {init : LoopInit} {condition update : Option Expr} (starts : init.ReadsBack separator)
    (tests : ∀ expr ∈ condition, expr.ReadsBack separator)
    (updates : ∀ expr ∈ update, expr.ReadsBack separator) (reads : body.ReadsBack separator) :
    (Stmt.loop init condition update body span).ReadsBack separator := by
  apply of_stmt?
  intro depth written rest deep writes other
  simp only [Stmt.loop.sizeOf_spec] at deep
  rw [Stmt.steps_loop, writesAll_framed, List.append_nil] at writes
  simp only [List.singleton_append, writesAll_append, writesAll_text] at writes
  obtain ⟨_, ⟨start, _, writesInit, ⟨_, ⟨check, _, writesTest, ⟨_, ⟨change, _, writesUpdate,
    ⟨back, writesBody, rfl⟩, rfl⟩, rfl⟩, rfl⟩, rfl⟩, rfl⟩, rfl⟩ := writes
  have shape : "for (".toList ++ (start ++ (";".toList ++ (check ++ (";".toList ++ (change ++
      (") ".toList ++ back)))))) ++ rest = Keyword.loop.word.toList ++ (" (".toList ++ (start ++
        ';' :: (check ++ ';' :: (change ++ ')' :: ' ' :: (back ++ rest))))) := by
    simp [Keyword.word]
  have readInit := starts depth span start
    (check ++ ';' :: (change ++ ')' :: ' ' :: (back ++ rest))) (by omega) writesInit
  have readTest := optional?_written (show ';' ∈ [';', ')'] by decide) tests depth (by omega)
    writesTest (change ++ ')' :: ' ' :: (back ++ rest))
  have readUpdate := optional?_written (show ')' ∈ [';', ')'] by decide) updates depth (by omega)
    writesUpdate (' ' :: (back ++ rest))
  have readBody := reads depth back rest (by omega) writesBody
    (.inr (other.resolve_left Bool.false_ne_true))
  rw [shape]
  refine (stmt?_keyword (by decide) rfl (stops_text rfl _).word).trans ?_
  simp only [skip?_append, readInit, Option.bind_eq_bind, Option.bind_some]
  simp [readTest, readUpdate, readBody]

end Stmt.ReadsBack

end Freshen
