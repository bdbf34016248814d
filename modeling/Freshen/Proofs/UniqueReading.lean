import Freshen.Code.Draft
import Freshen.Proofs.StmtReading

/-!
Written code can be read in one way only. Every readable tree is read back, by one induction over
it; so two readable programs with the same code are the same but for spans and shorthand flags.
-/

namespace Freshen

open Reading Step

variable {separator : String}

theorem length_of_declsAreReadable {decls : List Declarator}
    (readable : declsAreReadable separator decls = true) : decls.length = 1 := by
  unfold declsAreReadable at readable
  split at readable
  · rfl
  · cases readable

mutual

theorem Expr.readsBack (expr : Expr) (valid : separatorFault? separator = none)
    (readable : expr.isReadable separator = true) : expr.ReadsBack separator := by
  match expr with
  | .null _ => exact .null
  | .bool value _ => exact .bool value
  | .number value _ => exact .number readable
  | .string value _ => exact .string value
  | .regex pattern flags _ =>
      simp only [Expr.isReadable, Bool.and_eq_true, List.all_eq_true] at readable
      exact .regex readable.1 readable.2
  | .ident name _ => exact .ident valid readable
  | .array elements _ => exact .array (elements_readBack elements valid readable)
  | .object properties _ => exact .object (properties_readBack properties valid readable)
  | .function name params body _ _ =>
      simp only [Expr.isReadable, Bool.and_eq_true, List.all_eq_true] at readable
      obtain ⟨⟨named, plain⟩, inside⟩ := readable
      refine .function valid ?_ plain (stmts_readBack body valid inside)
      rintro given rfl
      exact named
  | .arrow params result _ _ =>
      simp only [Expr.isReadable, Bool.and_eq_true, List.all_eq_true] at readable
      exact .arrow valid readable.1 (result.readsBack valid readable.2)
  | .arrowBlock params body inner span => cases readable
  | .unary op arg _ => exact .unary op (arg.readsBack valid readable)
  | .binary op left right _ =>
      rw [Expr.isReadable, Bool.and_eq_true] at readable
      exact .binary op (left.readsBack valid readable.1) (right.readsBack valid readable.2)
  | .assign op target value _ =>
      rw [Expr.isReadable, Bool.and_eq_true] at readable
      exact .assign op (target.readsBack valid readable.1) (value.readsBack valid readable.2)
  | .update op before arg _ => exact .update op before (arg.readsBack valid readable)
  | .conditional test consequent alternate _ =>
      simp only [Expr.isReadable, Bool.and_eq_true] at readable
      exact .conditional (test.readsBack valid readable.1.1)
        (consequent.readsBack valid readable.1.2) (alternate.readsBack valid readable.2)
  | .sequence exprs _ =>
      simp only [Expr.isReadable, Bool.and_eq_true, decide_eq_true_eq] at readable
      have each := exprs_readBack exprs valid readable.2
      match exprs, readable.1 with
      | first :: second :: others, _ => exact .sequence each
  | .member object name _ =>
      rw [Expr.isReadable, Bool.and_eq_true] at readable
      exact .member readable.2 (object.readsBack valid readable.1)
  | .index object property _ =>
      rw [Expr.isReadable, Bool.and_eq_true] at readable
      exact .index (object.readsBack valid readable.1) (property.readsBack valid readable.2)
  | .call callee args _ =>
      rw [Expr.isReadable, Bool.and_eq_true] at readable
      exact .call (callee.readsBack valid readable.1) (exprs_readBack args valid readable.2)
  | .new callee args _ =>
      rw [Expr.isReadable, Bool.and_eq_true] at readable
      exact .new valid readable.1 (callee.readsBack valid readable.1)
        (exprs_readBack args valid readable.2)
  | .unsupported kind span =>
      intro depth written rest _ writes
      simp [Expr.steps, Writes] at writes

theorem exprs_readBack (exprs : List Expr) (valid : separatorFault? separator = none)
    (readable : exprsAreReadable separator exprs = true) :
    ∀ expr ∈ exprs, expr.ReadsBack separator := by
  match exprs with
  | [] => simp
  | first :: others =>
      rw [exprsAreReadable, Bool.and_eq_true] at readable
      exact List.forall_mem_cons.mpr
        ⟨first.readsBack valid readable.1, exprs_readBack others valid readable.2⟩

theorem optional_readsBack (optional : Option Expr) (valid : separatorFault? separator = none)
    (readable : optionalIsReadable separator optional = true) :
    ∀ expr ∈ optional, expr.ReadsBack separator := by
  match optional with
  | none => simp
  | some expr =>
      rintro _ ⟨⟩
      exact expr.readsBack valid readable

theorem elements_readBack (elements : List (Option Expr)) (valid : separatorFault? separator = none)
    (readable : elementsAreReadable separator elements = true) :
    ∀ expr, some expr ∈ elements → expr.ReadsBack separator := by
  match elements with
  | [] => simp
  | element :: others =>
      rw [elementsAreReadable, Bool.and_eq_true] at readable
      intro expr member
      rcases List.mem_cons.mp member with same | member
      · exact optional_readsBack element valid readable.1 expr same.symm
      · exact elements_readBack others valid readable.2 expr member

theorem properties_readBack (properties : List Property) (valid : separatorFault? separator = none)
    (readable : propertiesAreReadable separator properties = true) :
    ∀ property ∈ properties, property.ReadsBack separator := by
  match properties with
  | [] => simp
  | first :: others =>
      rw [propertiesAreReadable, Bool.and_eq_true] at readable
      exact List.forall_mem_cons.mpr
        ⟨first.readsBack valid readable.1, properties_readBack others valid readable.2⟩

theorem Property.readsBack (property : Property) (valid : separatorFault? separator = none)
    (readable : property.isReadable separator = true) : property.ReadsBack separator := by
  match property with
  | .named name value _ =>
      rw [Property.isReadable, Bool.and_eq_true] at readable
      exact .named readable.1 (value.readsBack valid readable.2)
  | .computed key value _ =>
      rw [Property.isReadable, Bool.and_eq_true] at readable
      exact .computed (key.readsBack valid readable.1) (value.readsBack valid readable.2)

theorem Stmt.readsBack (stmt : Stmt) (valid : separatorFault? separator = none)
    (readable : stmt.isReadable separator = true) : stmt.ReadsBack separator := by
  match stmt with
  | .var kind decls _ =>
      obtain ⟨name, init, place, rfl, plain, reads⟩ := decls_readBack decls valid readable
      exact .var kind valid plain reads
  | .function name params body _ _ =>
      simp only [Stmt.isReadable, Bool.and_eq_true, List.all_eq_true] at readable
      obtain ⟨⟨named, plain⟩, inside⟩ := readable
      have each := stmts_readBack body valid inside
      match name, named with
      | some name, named => exact .function valid named plain each
  | .block body _ => exact .block (stmts_readBack body valid readable)
  | .cond test consequent alternate _ =>
      simp only [Stmt.isReadable, Bool.and_eq_true] at readable
      obtain ⟨⟨⟨condition, inside⟩, isBlock⟩, other⟩ := readable
      have reads := alternate_readsBack alternate valid other
      have readTest := test.readsBack valid condition
      have readBody := consequent.readsBack valid inside
      cases alternate with
      | none => exact .cond readTest readBody
      | some alternate => exact .condElse readTest isBlock readBody (reads alternate rfl)
  | .loop init test update body _ =>
      simp only [Stmt.isReadable, Bool.and_eq_true] at readable
      obtain ⟨⟨⟨start, condition⟩, change⟩, inside⟩ := readable
      exact .loop (init.readsBack valid start) (optional_readsBack test valid condition)
        (optional_readsBack update valid change) (body.readsBack valid inside)
  | .whileLoop test body _ =>
      rw [Stmt.isReadable, Bool.and_eq_true] at readable
      exact .whileLoop (test.readsBack valid readable.1) (body.readsBack valid readable.2)
  | .doWhile body test _ =>
      rw [Stmt.isReadable, Bool.and_eq_true] at readable
      exact .doWhile (body.readsBack valid readable.2) (test.readsBack valid readable.1)
  | .exitLoop _ => exact .exitLoop
  | .nextLoop _ => exact .nextLoop
  | .ret arg _ => exact .ret (optional_readsBack arg valid readable)
  | .throw arg _ => exact .throw (arg.readsBack valid readable)
  | .expr value _ => exact .expr (value.readsBack valid readable)
  | .empty _ => exact .empty
  | .unsupported kind span =>
      intro depth written rest _ writes
      simp [Stmt.steps, Writes] at writes

theorem alternate_readsBack (alternate : Option Stmt) (valid : separatorFault? separator = none)
    (readable : alternateIsReadable separator alternate = true) :
    ∀ stmt ∈ alternate, stmt.ReadsBack separator := by
  match alternate with
  | none => simp
  | some stmt =>
      rintro _ ⟨⟩
      exact stmt.readsBack valid readable

theorem stmts_readBack (stmts : List Stmt) (valid : separatorFault? separator = none)
    (readable : stmtsAreReadable separator stmts = true) :
    ∀ stmt ∈ stmts, stmt.ReadsBack separator := by
  match stmts with
  | [] => simp
  | first :: others =>
      rw [stmtsAreReadable, Bool.and_eq_true] at readable
      exact List.forall_mem_cons.mpr
        ⟨first.readsBack valid readable.1, stmts_readBack others valid readable.2⟩

theorem decls_readBack (decls : List Declarator) (valid : separatorFault? separator = none)
    (readable : declsAreReadable separator decls = true) :
    ∃ name init place, decls = [.mk name init place] ∧ isPlainName separator name = true ∧
      ∀ value ∈ init, value.ReadsBack separator := by
  match decls with
  | [] => cases readable
  | [.mk name init place] =>
      rw [declsAreReadable, Bool.and_eq_true] at readable
      exact ⟨name, init, place, rfl, readable.1, optional_readsBack init valid readable.2⟩
  | _ :: _ :: _ => exact absurd (length_of_declsAreReadable readable) (by simp)

theorem LoopInit.readsBack (init : LoopInit) (valid : separatorFault? separator = none)
    (readable : init.isReadable separator = true) : init.ReadsBack separator := by
  match init with
  | .absent => exact .absent
  | .decl kind decls =>
      obtain ⟨name, value, place, rfl, plain, reads⟩ := decls_readBack decls valid readable
      exact .decl kind valid plain reads
  | .expr value => exact .expr (value.readsBack valid readable)

end

/-! Programs. -/

theorem program?_written {depth count : Nat} {body : List Stmt} {written : List Char}
    (each : ∀ stmt ∈ body, stmt.ReadsBack separator) (deep : sizeOf body < depth)
    (few : body.length < count)
    (writes : WritesAll separator (body.flatMap fun stmt => stmt.steps ++ [.newline]) written) :
    program? (readers separator depth).stmt count written = some (erasedStmts body) := by
  induction body generalizing written count with
  | nil =>
      obtain ⟨count, rfl⟩ : ∃ less, count = less + 1 := ⟨count - 1, by omega⟩
      rw [List.flatMap_nil, writesAll_nil] at writes
      subst writes
      rw [program?, erasedStmts]
  | cons first others ih =>
      obtain ⟨count, rfl⟩ : ∃ less, count = less + 1 := ⟨count - 1, by omega⟩
      simp only [List.cons.sizeOf_spec] at deep
      rw [List.flatMap_cons, List.append_assoc, writesAll_append] at writes
      obtain ⟨front, _, writesFirst, writes, rfl⟩ := writes
      rw [List.singleton_append, writesAll_newline] at writes
      obtain ⟨line, back, broken, writes, rfl⟩ := writes
      have readOthers := ih (fun stmt member => each stmt (List.mem_cons_of_mem _ member))
        (by omega) (Nat.lt_of_succ_lt_succ few) writes
      have apart : ∀ tail, back ≠ ' ' :: tail := by
        rintro tail rfl
        cases count with
        | zero => cases readOthers
        | succ count =>
            rw [program?, stmt_symbol tail depth (by decide)] at readOthers
            · cases readOthers
            · simp
      obtain ⟨blanks, split, dropped⟩ := broken.skip apart
      have read := each first (by simp) depth front ('\n' :: (blanks ++ back)) (by omega)
        writesFirst (.inr rfl)
      rw [split, program?, read]
      · simp [dropped, readOthers]
      · simp

/-- The code of a readable program is read back, in any style that indents by spaces. -/
theorem Program.reads_back {program : Program} {style : Style} {text : String}
    (valid : separatorFault? style.separator = none) (blank : style.indentsBySpaces = true)
    (readable : program.isReadable style.separator = true)
    (written : program.transform style = .ok text) {depth : Nat}
    (deep : sizeOf program.body < depth) :
    program? (readers style.separator depth).stmt depth text.toList =
      some (erasedStmts program.body) := by
  rw [Program.transform, Program.template] at written
  cases ran : runAll program.steps {} with
  | error cause writer =>
      rw [ran] at written
      cases written
  | ok _ writer =>
      rw [ran] at written
      obtain ⟨content, writes, rendered⟩ := runAll_writes program.steps blank .initial ran
      have same : text.toList = content := by
        rw [← Except.ok.inj written]
        exact rendered
      rw [Program.steps, writesAll_append] at writes
      obtain ⟨_, lines, nothing, writes, rfl⟩ := writes
      rw [hoistSteps_write nothing, List.nil_append] at same
      have few := length_lt_sizeOf program.body
      rw [same]
      exact program?_written (stmts_readBack program.body valid readable) deep (by omega) writes

/-- No two readable programs have the same code. -/
theorem erased_eq_of_transform_eq (first second : Program) (style : Style) (text : String)
    (valid : separatorFault? style.separator = none) (blank : style.indentsBySpaces = true)
    (readableFirst : first.isReadable style.separator = true)
    (readableSecond : second.isReadable style.separator = true)
    (writtenFirst : first.transform style = .ok text)
    (writtenSecond : second.transform style = .ok text) : first.erased = second.erased := by
  have shallow : sizeOf first.body < sizeOf first.body + sizeOf second.body + 1 := by omega
  have deep : sizeOf second.body < sizeOf first.body + sizeOf second.body + 1 := by omega
  have readFirst := Program.reads_back valid blank readableFirst writtenFirst shallow
  have readSecond := Program.reads_back valid blank readableSecond writtenSecond deep
  have same : erasedStmts first.body = erasedStmts second.body :=
    Option.some.inj (readFirst.symm.trans readSecond)
  rw [Program.erased, Program.erased, same]

theorem erased_eq_of_transform_eq_shorthand :
    let first : Program := ⟨[
      .cond (.binary .power (.unary .minus (.ident "x" {}) {}) (.string "\"" {}) {})
        (.block [.var .lexical [
          .mk "x" (some (.array [none, some (.ident "x" ⟨1, 2⟩)] {})) {}] {}] {})
        (some (.expr (.call (.new (.ident "x" {}) [] {}) [.object [
          .named (.ident "x") (.ident "x" {}) true] {}] {}) {})) {}], {}⟩
    let second : Program := ⟨[
      .cond (.binary .power (.unary .minus (.ident "x" {}) {}) (.string "\"" {}) {})
        (.block [.var .lexical [
          .mk "x" (some (.array [none, some (.ident "x" {})] {})) {}] {}] {})
        (some (.expr (.call (.new (.ident "x" {}) [] {}) [.object [
          .named (.ident "x") (.ident "x" {}) false] {}] {}) {})) {}], ⟨3, 4⟩⟩
    let text := "if (((-(x)) ** \"\\\"\")) \x7b\n  let x$0 = [, x$0];\n\x7d else " ++
      "(new x())((\x7bx: x\x7d));\n"
    separatorFault? "$" = none ∧ Style.indentsBySpaces {} = true ∧ first.isReadable "$" = true ∧
      second.isReadable "$" = true ∧ first.transform {} = .ok text ∧
      second.transform {} = .ok text ∧ first.erased = second.erased :=
  ⟨by decide, by decide, by decide, by decide, rfl, rfl,
    erased_eq_of_transform_eq _ _ {} _ (by decide) (by decide) (by decide) (by decide) rfl rfl⟩

end Freshen
