import Freshen.Proofs.Balance
import Freshen.Proofs.Filling

/-!
Lines and braces. Only the bodies of blocks and functions and the branches that are put in braces
set the lines inside them one level further in; object literals and concise arrows do not. The
level of a line is the number of such braces around it.
-/

namespace Freshen

def Piece.isLayout : Piece → Bool
  | newline _ | openBrace | closeBrace => true
  | _ => false

def enclosed (depth : Nat) (inside : List Piece) : List Piece :=
  [.openBrace] ++ inside ++ [.newline depth, .closeBrace]

mutual

def Expr.layout (depth : Nat) : Expr → List Piece
  | .array elements _ => elementLayout depth elements
  | .object properties _ => propertyLayout depth properties
  | .function _ _ body _ _ | .arrowBlock _ body _ _ => bodyLayout depth body
  | .arrow _ arg _ _ | .unary _ arg _ | .update _ _ arg _ | .member arg _ _ => arg.layout depth
  | .binary _ left right _ | .assign _ left right _ | .index left right _ =>
    left.layout depth ++ right.layout depth
  | .conditional test consequent alternate _ =>
    test.layout depth ++ consequent.layout depth ++ alternate.layout depth
  | .sequence exprs _ => exprsLayout depth exprs
  | .call callee args _ | .new callee args _ => callee.layout depth ++ exprsLayout depth args
  | _ => []

def exprsLayout (depth : Nat) : List Expr → List Piece
  | [] => []
  | expr :: rest => expr.layout depth ++ exprsLayout depth rest

def optionalLayout (depth : Nat) : Option Expr → List Piece
  | none => []
  | some expr => expr.layout depth

def elementLayout (depth : Nat) : List (Option Expr) → List Piece
  | [] => []
  | element :: rest => optionalLayout depth element ++ elementLayout depth rest

def propertyLayout (depth : Nat) : List Property → List Piece
  | [] => []
  | property :: rest => property.layout depth ++ propertyLayout depth rest

def Property.layout (depth : Nat) : Property → List Piece
  | .named _ value _ => value.layout depth
  | .computed key value _ => key.layout depth ++ value.layout depth

def Stmt.layout (depth : Nat) : Stmt → List Piece
  | .var _ decls _ => declLayout depth decls
  | .function _ _ body _ _ | .block body _ => bodyLayout depth body
  | .cond test consequent none _ => test.layout depth ++ consequent.layout depth
  | .cond test consequent (some alternate) _ =>
    test.layout depth ++
      (if consequent.isBlock then consequent.layout depth
        else enclosed depth ([.newline (depth + 1)] ++ consequent.layout (depth + 1))) ++
      alternate.layout depth
  | .loop init test update body _ =>
    init.layout depth ++ optionalLayout depth test ++ optionalLayout depth update ++
      body.layout depth
  | .whileLoop test body _ => test.layout depth ++ body.layout depth
  | .doWhile body test _ => body.layout depth ++ test.layout depth
  | .ret arg _ => optionalLayout depth arg
  | .throw arg _ | .expr arg _ => arg.layout depth
  | _ => []

def linesLayout (depth : Nat) : List Stmt → List Piece
  | [] => []
  | stmt :: rest => [.newline depth] ++ stmt.layout depth ++ linesLayout depth rest

def bodyLayout (depth : Nat) : List Stmt → List Piece
  | [] => []
  | stmt :: rest =>
    enclosed depth
      ([.newline (depth + 1)] ++ stmt.layout (depth + 1) ++ linesLayout (depth + 1) rest)

def declLayout (depth : Nat) : List Declarator → List Piece
  | [] => []
  | .mk _ init _ :: _ => optionalLayout depth init

def LoopInit.layout (depth : Nat) : LoopInit → List Piece
  | .absent => []
  | .decl _ decls => declLayout depth decls
  | .expr expr => expr.layout depth

end

def Program.layout (program : Program) : List Piece :=
  program.body.flatMap fun stmt => stmt.layout 0 ++ [.newline 0]

namespace Step

mutual

def layout (depth : Nat) : Step → List Piece
  | newline => [.newline depth]
  | framed body => layoutAll depth body
  | braced body => enclosed depth (layoutAll (depth + 1) body)
  | _ => []

def layoutAll (depth : Nat) : List Step → List Piece
  | [] => []
  | step :: rest => layout depth step ++ layoutAll depth rest

end

@[simp] theorem layoutAll_nil (depth : Nat) : layoutAll depth [] = [] := rfl

@[simp] theorem layoutAll_cons (depth : Nat) (step : Step) (rest : List Step) :
    layoutAll depth (step :: rest) = layout depth step ++ layoutAll depth rest := rfl

@[simp] theorem layoutAll_append (depth : Nat) (first second : List Step) :
    layoutAll depth (first ++ second) = layoutAll depth first ++ layoutAll depth second := by
  induction first with
  | nil => rfl
  | cons step rest ih => simp [ih]

@[simp] theorem layoutAll_parenthesized (depth : Nat) (steps : List Step) :
    layoutAll depth (parenthesized steps) = layoutAll depth steps := by
  simp [parenthesized, layout]

def laid (writer : Writer) : List Piece := writer.output.toList.filter Piece.isLayout

theorem laid_write (writer : Writer) (piece : Piece) :
    laid (writer.write piece) = laid writer ++ [piece].filter Piece.isLayout := by
  rw [laid, Writer.output_write, List.filter_append]
  rfl

theorem laid_openBrace (writer : Writer) : laid writer.openBrace = laid writer ++ [.openBrace] :=
  laid_write writer .openBrace

theorem laid_closeBrace (writer : Writer) :
    laid writer.closeBrace = laid writer ++ [.newline (writer.level - 1), .closeBrace] := by
  rw [Writer.closeBrace, laid_write, Writer.newline, laid_write, List.append_assoc]
  rfl

mutual

theorem run_laid (step : Step) {writer after : Writer} (ran : run step writer = .ok () after) :
    laid after = laid writer ++ layout writer.level step := by
  match step with
  | text _ | newline | declare _ =>
      cases ran
      exact laid_write _ _
  | bind _ =>
      cases ran
      simp [layout, laid, Writer.declare]
  | refer name =>
      cases ran
      rw [Writer.refer]
      split
      · exact laid_write _ _
      · exact laid_write _ _
  | framed body =>
      rw [run] at ran
      cases inside : runAll body writer.enter with
      | ok _ middle =>
          rw [inside] at ran
          cases ran
          have lines : laid middle = laid writer.enter ++ layoutAll writer.enter.level body :=
            runAll_laid body inside
          exact lines
      | error cause middle =>
          rw [inside] at ran
          cases ran
  | braced body =>
      rw [run] at ran
      cases inside : runAll body writer.openBrace with
      | ok _ middle =>
          rw [inside] at ran
          cases ran
          have level : middle.level = writer.level + 1 := runAll_level body inside
          have lines : laid middle = laid writer.openBrace ++ layoutAll (writer.level + 1) body :=
            runAll_laid body inside
          rw [laid_closeBrace, lines, laid_openBrace, level, Nat.add_sub_cancel, layout, enclosed]
          simp
      | error cause middle =>
          rw [inside] at ran
          cases ran
  | reject cause => cases ran

theorem runAll_laid (steps : List Step) {writer after : Writer}
    (ran : runAll steps writer = .ok () after) :
    laid after = laid writer ++ layoutAll writer.level steps := by
  match steps with
  | [] =>
      cases ran
      simp
  | step :: rest =>
      rw [runAll] at ran
      cases start : run step writer with
      | ok _ middle =>
          rw [start] at ran
          rw [runAll_laid rest ran, run_laid step start, run_level step start, layoutAll_cons,
            List.append_assoc]
      | error cause middle =>
          rw [start] at ran
          cases ran

end

end Step

open Step

theorem layoutAll_asOperand (depth : Nat) (expr : Expr) (steps : List Step) :
    layoutAll depth (expr.asOperand steps) = layoutAll depth steps := by
  rw [Expr.asOperand]
  split
  · rfl
  · exact layoutAll_parenthesized depth steps

theorem layoutAll_asConstructor (depth : Nat) (expr : Expr) (steps : List Step) :
    layoutAll depth (expr.asConstructor steps) = layoutAll depth steps := by
  rw [Expr.asConstructor]
  split
  · rfl
  · exact layoutAll_parenthesized depth steps

theorem layoutAll_asLeft (depth : Nat) (expr : Expr) (op : BinaryOp) (steps : List Step) :
    layoutAll depth (expr.asLeft op steps) = layoutAll depth steps := by
  rw [Expr.asLeft]
  split
  · exact layoutAll_parenthesized depth steps
  · rfl

@[simp] theorem layoutAll_hoistSteps (depth : Nat) (body : List Stmt) :
    layoutAll depth (hoistSteps body) = [] := by
  rw [hoistSteps]
  induction body.filterMap Stmt.hoistedName with
  | nil => rfl
  | cons name rest ih => simpa [layout] using ih

@[simp] theorem layoutAll_paramSteps (depth : Nat) (params : List Param) :
    layoutAll depth (paramSteps params) = [] := by
  match params with
  | [] => rfl
  | [param] => rfl
  | first :: second :: rest =>
      rw [paramSteps_cons_cons, layoutAll_append, layoutAll_paramSteps depth (second :: rest)]
      rfl

@[simp] theorem layoutAll_functionHead (depth : Nat) (name : Option String) :
    layoutAll depth (functionHead name) = [] := by
  cases name <;> rfl

@[simp] theorem layoutAll_propertyName (depth : Nat) (name : PropertyName) :
    layoutAll depth name.steps = [] := by
  cases name <;> rfl

mutual

theorem Expr.layoutAll_steps (depth : Nat) (expr : Expr) :
    layoutAll depth expr.steps = expr.layout depth := by
  match expr with
  | .null _ | .bool _ _ | .number _ _ | .string _ _ | .regex _ _ _ | .ident _ _
  | .unsupported _ _ => simp [Expr.steps, Expr.layout, Step.layout]
  | .array elements _ =>
      simp [Expr.steps, Expr.layout, Step.layout, layoutAll_elements depth elements]
  | .object properties _ =>
      simp [Expr.steps, Expr.layout, Step.layout, layoutAll_properties depth properties]
  | .function name params body _ _ =>
      simp [Expr.steps, Expr.layout, Step.layout, layoutAll_body depth body]
  | .arrow params result _ _ =>
      simp [Expr.steps, Expr.layout, Step.layout, result.layoutAll_steps depth]
  | .arrowBlock params body _ _ =>
      simp [Expr.steps, Expr.layout, Step.layout, layoutAll_body depth body]
  | .unary op arg _ => simp [Expr.steps, Expr.layout, Step.layout, arg.layoutAll_steps depth]
  | .binary op left right _ =>
      simp [Expr.steps, Expr.layout, Step.layout, layoutAll_asLeft, left.layoutAll_steps depth,
        right.layoutAll_steps depth]
  | .assign op target value _ =>
      simp [Expr.steps, Expr.layout, Step.layout, target.layoutAll_steps depth,
        value.layoutAll_steps depth]
  | .update op before arg _ =>
      cases before <;> simp [Expr.steps, Expr.layout, Step.layout, arg.layoutAll_steps depth]
  | .conditional test consequent alternate _ =>
      simp [Expr.steps, Expr.layout, Step.layout, test.layoutAll_steps depth,
        consequent.layoutAll_steps depth, alternate.layoutAll_steps depth]
  | .sequence exprs _ => simp [Expr.steps, Expr.layout, layoutAll_exprs depth exprs]
  | .member object name _ =>
      simp [Expr.steps, Expr.layout, Step.layout, layoutAll_asOperand,
        object.layoutAll_steps depth]
  | .index object property _ =>
      simp [Expr.steps, Expr.layout, Step.layout, layoutAll_asOperand,
        object.layoutAll_steps depth, property.layoutAll_steps depth]
  | .call callee args _ =>
      simp [Expr.steps, Expr.layout, layoutAll_asOperand, callee.layoutAll_steps depth,
        layoutAll_exprs depth args]
  | .new callee args _ =>
      simp [Expr.steps, Expr.layout, Step.layout, layoutAll_asConstructor,
        callee.layoutAll_steps depth, layoutAll_exprs depth args]

theorem layoutAll_exprs (depth : Nat) (exprs : List Expr) :
    layoutAll depth (exprsSteps exprs) = exprsLayout depth exprs := by
  match exprs with
  | [] => simp [exprsSteps, exprsLayout]
  | [expr] => simp [exprsSteps, exprsLayout, expr.layoutAll_steps depth]
  | expr :: following :: rest =>
      rw [exprsSteps_cons_cons, exprsLayout]
      simp [Step.layout, expr.layoutAll_steps depth, layoutAll_exprs depth (following :: rest)]

theorem layoutAll_optional (depth : Nat) (optional : Option Expr) :
    layoutAll depth (optionalSteps optional) = optionalLayout depth optional := by
  match optional with
  | none => simp [optionalSteps, optionalLayout]
  | some expr => simp [optionalSteps, optionalLayout, Step.layout, expr.layoutAll_steps depth]

theorem layoutAll_elements (depth : Nat) (elements : List (Option Expr)) :
    layoutAll depth (elementSteps elements) = elementLayout depth elements := by
  match elements with
  | [] => simp [elementSteps, elementLayout]
  | [none] => simp [elementSteps, elementLayout, optionalLayout, Step.layout]
  | [some expr] =>
      simp [elementSteps, elementLayout, optionalLayout, expr.layoutAll_steps depth]
  | none :: following :: rest =>
      rw [elementSteps_hole_cons, elementLayout]
      simp [optionalLayout, Step.layout, layoutAll_elements depth (following :: rest)]
  | some expr :: following :: rest =>
      rw [elementSteps_cons_cons, elementLayout]
      simp [optionalLayout, Step.layout, expr.layoutAll_steps depth,
        layoutAll_elements depth (following :: rest)]

theorem layoutAll_properties (depth : Nat) (properties : List Property) :
    layoutAll depth (propertySteps properties) = propertyLayout depth properties := by
  match properties with
  | [] => simp [propertySteps, propertyLayout]
  | [property] => simp [propertySteps, propertyLayout, property.layoutAll_steps depth]
  | property :: following :: rest =>
      rw [propertySteps_cons_cons, propertyLayout]
      simp [Step.layout, property.layoutAll_steps depth,
        layoutAll_properties depth (following :: rest)]

theorem Property.layoutAll_steps (depth : Nat) (property : Property) :
    layoutAll depth property.steps = property.layout depth := by
  match property with
  | .named name value _ =>
      simp [Property.steps, Property.layout, Step.layout, value.layoutAll_steps depth]
  | .computed key value _ =>
      simp [Property.steps, Property.layout, Step.layout, key.layoutAll_steps depth,
        value.layoutAll_steps depth]

theorem Stmt.layoutAll_steps (depth : Nat) (stmt : Stmt) :
    layoutAll depth stmt.steps = stmt.layout depth := by
  match stmt with
  | .var kind decls span =>
      simp [Stmt.steps, Stmt.layout, Step.layout, layoutAll_decls depth kind span decls]
  | .function name params body _ _ =>
      cases name <;> simp [Stmt.steps, Stmt.layout, Step.layout, layoutAll_body depth body]
  | .block body _ => simp [Stmt.steps, Stmt.layout, Step.layout, layoutAll_body depth body]
  | .cond test consequent none _ =>
      simp [Stmt.steps, Stmt.layout, Step.layout, test.layoutAll_steps depth,
        consequent.layoutAll_steps depth]
  | .cond test consequent (some alternate) _ =>
      cases braces : consequent.isBlock <;>
        simp [Stmt.steps, Stmt.layout, Step.layout, test.layoutAll_steps depth,
          consequent.layoutAll_steps, alternate.layoutAll_steps depth, braces]
  | .loop init test update body span =>
      rw [Stmt.steps_loop]
      simp [Stmt.layout, Step.layout, init.layoutAll_steps depth span,
        layoutAll_optional depth test, layoutAll_optional depth update,
        body.layoutAll_steps depth]
  | .whileLoop test body _ =>
      simp [Stmt.steps, Stmt.layout, Step.layout, test.layoutAll_steps depth,
        body.layoutAll_steps depth]
  | .doWhile body test _ =>
      simp [Stmt.steps, Stmt.layout, Step.layout, test.layoutAll_steps depth,
        body.layoutAll_steps depth]
  | .exitLoop _ | .nextLoop _ | .empty _ | .unsupported _ _ =>
      simp [Stmt.steps, Stmt.layout, Step.layout]
  | .ret none _ => simp [Stmt.steps, Stmt.layout, optionalLayout, Step.layout]
  | .ret (some arg) _ =>
      simp [Stmt.steps, Stmt.layout, optionalLayout, Step.layout, arg.layoutAll_steps depth]
  | .throw arg _ => simp [Stmt.steps, Stmt.layout, Step.layout, arg.layoutAll_steps depth]
  | .expr arg _ => simp [Stmt.steps, Stmt.layout, Step.layout, arg.layoutAll_steps depth]

theorem layoutAll_lines (depth : Nat) (body : List Stmt) :
    layoutAll depth (lineSteps body) = linesLayout depth body := by
  match body with
  | [] => simp [lineSteps, linesLayout]
  | stmt :: rest =>
      simp [lineSteps, linesLayout, Step.layout, stmt.layoutAll_steps depth,
        layoutAll_lines depth rest]

theorem layoutAll_body (depth : Nat) (body : List Stmt) :
    layoutAll depth (bodySteps body) = bodyLayout depth body := by
  match body with
  | [] => simp [bodySteps, bodyLayout, Step.layout]
  | stmt :: rest =>
      simp [bodySteps, bodyLayout, Step.layout, stmt.layoutAll_steps (depth + 1),
        layoutAll_lines (depth + 1) rest]

theorem layoutAll_decls (depth : Nat) (kind : DeclKind) (span : Span) (decls : List Declarator) :
    layoutAll depth (declSteps kind span decls) = declLayout depth decls := by
  match decls with
  | [] => simp [declSteps, declLayout, Step.layout]
  | .mk name none _ :: _ => simp [declSteps, declLayout, optionalLayout, Step.layout]
  | .mk name (some init) _ :: _ =>
      simp [declSteps, declLayout, optionalLayout, Step.layout, init.layoutAll_steps depth]

theorem LoopInit.layoutAll_steps (depth : Nat) (init : LoopInit) (span : Span) :
    layoutAll depth (init.steps span) = init.layout depth := by
  match init with
  | .absent => simp [LoopInit.steps, LoopInit.layout]
  | .decl kind decls =>
      simp [LoopInit.steps, LoopInit.layout, layoutAll_decls depth kind span decls]
  | .expr expr => simp [LoopInit.steps, LoopInit.layout, expr.layoutAll_steps depth]

end

theorem Program.layoutAll_steps (program : Program) :
    layoutAll 0 program.steps = program.layout := by
  rw [Program.steps, layoutAll_append, layoutAll_hoistSteps, List.nil_append, Program.layout]
  induction program.body with
  | nil => rfl
  | cons stmt rest ih => simp [Step.layout, stmt.layoutAll_steps 0, ih]

/-- The level of each line, inside `depth` braces and those that are open before it. The line of a
closing brace is outside that brace. -/
def Leveled (depth : Nat) (pieces : List Piece) : Prop :=
  ∀ front level back, pieces = front ++ .newline level :: back →
    level + front.count .closeBrace + (if back.head? = some .closeBrace then 1 else 0) =
      depth + front.count .openBrace

/-- Pieces that close the braces they open, and no others. -/
structure BracesNest (depth : Nat) (pieces : List Piece) : Prop where
  leveled : Leveled depth pieces
  balanced : pieces.count .closeBrace = pieces.count .openBrace
  opening : pieces.head? ≠ some .closeBrace

namespace BracesNest

variable {depth : Nat} {first second inside : List Piece}

theorem nil : BracesNest depth [] where
  leveled front level back split := by simp at split
  balanced := rfl
  opening := by simp

theorem newline : BracesNest depth [.newline depth] where
  leveled front level back split := by
    cases front with
    | nil => simp_all
    | cons piece rest => simp at split
  balanced := rfl
  opening := by simp

theorem other {piece : Piece} (plain : piece.isLayout = false) : BracesNest depth [piece] := by
  cases piece with
  | newline _ | openBrace | closeBrace => simp [Piece.isLayout] at plain
  | _ =>
      refine ⟨fun front level back split => ?_, by simp, by simp⟩
      cases front <;> simp at split

theorem head?_append_eq_closeBrace (opening : second.head? ≠ some .closeBrace) :
    (first ++ second).head? = some .closeBrace ↔ first.head? = some .closeBrace := by
  cases first with
  | nil => simpa using opening
  | cons piece rest => rfl

theorem split_append {front back : List Piece} {piece : Piece}
    (split : first ++ second = front ++ piece :: back) :
    (∃ more, first = front ++ piece :: more ∧ back = more ++ second) ∨
      ∃ more, front = first ++ more ∧ second = more ++ piece :: back := by
  rcases List.append_eq_append_iff.mp split with ⟨more, before, after⟩ | ⟨more, before, after⟩
  · exact .inr ⟨more, before, after⟩
  · cases more with
    | nil => exact .inr ⟨[], by simpa using before.symm, after.symm⟩
    | cons other more =>
        obtain ⟨rfl, rest⟩ := List.cons.inj after
        exact .inl ⟨more, before, rest⟩

theorem append (left : BracesNest depth first) (right : BracesNest depth second) :
    BracesNest depth (first ++ second) where
  leveled front level back split := by
    rcases split_append split with ⟨more, rfl, rfl⟩ | ⟨more, rfl, rest⟩
    · simp only [head?_append_eq_closeBrace right.opening]
      exact left.leveled front level more rfl
    · have inner := right.leveled more level back rest
      have balanced := left.balanced
      rw [List.count_append, List.count_append]
      omega
  balanced := by
    rw [List.count_append, List.count_append, left.balanced, right.balanced]
  opening := by
    cases first with
    | nil => exact right.opening
    | cons piece rest => exact left.opening

theorem enclosed (within : BracesNest (depth + 1) inside) :
    BracesNest depth (enclosed depth inside) where
  leveled front level back split := by
    rw [Freshen.enclosed, List.append_assoc, List.singleton_append] at split
    cases front with
    | nil => simp at split
    | cons brace front =>
        obtain ⟨rfl, rest⟩ := List.cons.inj split
        rw [List.count_cons_of_ne (by simp), List.count_cons_self]
        rcases split_append rest with ⟨more, rfl, rfl⟩ | ⟨more, rfl, last⟩
        · have inner := within.leveled front level more rfl
          have apart : [Piece.newline depth, .closeBrace].head? ≠ some .closeBrace := by simp
          simp only [head?_append_eq_closeBrace apart]
          omega
        · -- the line of the closing brace is the only one behind
          have balanced := within.balanced
          rcases more with _ | ⟨_, _ | _⟩
          · obtain ⟨rfl, rfl⟩ : depth = level ∧ [.closeBrace] = back := by simpa using last
            simp only [List.append_nil, List.head?_cons, if_true]
            omega
          · simp at last
          · simp at last
  balanced := by
    simp [Freshen.enclosed, List.count_append, within.balanced]
  opening := by simp [Freshen.enclosed]

end BracesNest

namespace Step

def Grows (before after : Writer) : Prop :=
  ∃ pieces, after.output.toList = before.output.toList ++ pieces ∧
    BracesNest before.level pieces

theorem grows_write (writer : Writer) {piece : Piece} (nested : BracesNest writer.level [piece]) :
    Grows writer (writer.write piece) :=
  ⟨[piece], Writer.output_write writer piece, nested⟩

mutual

theorem run_grows (step : Step) {writer after : Writer} (ran : run step writer = .ok () after) :
    Grows writer after := by
  match step with
  | text _ | declare _ =>
      cases ran
      exact grows_write _ (.other rfl)
  | newline =>
      cases ran
      exact grows_write _ .newline
  | bind _ =>
      cases ran
      exact ⟨[], by simp [Writer.declare], .nil⟩
  | refer name =>
      cases ran
      rw [Writer.refer]
      split
      · exact grows_write _ (.other rfl)
      · exact grows_write _ (.other rfl)
  | framed body =>
      rw [run] at ran
      cases inside : runAll body writer.enter with
      | ok _ middle =>
          rw [inside] at ran
          cases ran
          have within : Grows writer.enter middle := runAll_grows body inside
          exact within
      | error cause middle =>
          rw [inside] at ran
          cases ran
  | braced body =>
      rw [run] at ran
      cases inside : runAll body writer.openBrace with
      | ok _ middle =>
          rw [inside] at ran
          cases ran
          have level : middle.level = writer.level + 1 := runAll_level body inside
          obtain ⟨pieces, output, nested⟩ : Grows writer.openBrace middle :=
            runAll_grows body inside
          refine ⟨enclosed writer.level pieces, ?_, nested.enclosed⟩
          rw [Writer.closeBrace, Writer.output_write, Writer.newline, Writer.output_write, output,
            level]
          simp [enclosed, Writer.openBrace, Writer.write]
      | error cause middle =>
          rw [inside] at ran
          cases ran
  | reject cause => cases ran

theorem runAll_grows (steps : List Step) {writer after : Writer}
    (ran : runAll steps writer = .ok () after) : Grows writer after := by
  match steps with
  | [] =>
      cases ran
      exact ⟨[], by simp, .nil⟩
  | step :: rest =>
      rw [runAll] at ran
      cases start : run step writer with
      | ok _ middle =>
          rw [start] at ran
          obtain ⟨first, early, left⟩ := run_grows step start
          obtain ⟨second, late, right⟩ := runAll_grows rest ran
          rw [run_level step start] at right
          exact ⟨first ++ second, by rw [late, early, List.append_assoc], left.append right⟩
      | error cause middle =>
          rw [start] at ran
          cases ran

end

end Step

/-- A program has one template. Every style only fills it in, even if it is known from the start,
and a program that is refused in one style is refused for the same cause in all. The levels of the
lines are the braces that are open there, which are those of blocks, functions and branches. -/
theorem styles_fill_one_template (program : Program) :
    (∀ style, program.styledText style = program.template.map style.render ∧
      program.transform style = program.template.map style.render) ∧
    (∀ style other cause, program.transform style = .error cause →
      program.transform other = .error cause) ∧
    ∀ pieces, program.template = .ok pieces →
      Leveled 0 pieces ∧ pieces.filter Piece.isLayout = program.layout := by
  refine ⟨fun style => ⟨program.styledText_eq style, rfl⟩, ?_, ?_⟩
  · intro style other cause refused
    rw [Program.transform] at refused ⊢
    cases template : program.template with
    | ok pieces => simp [template, Except.map] at refused
    | error first => simpa [template, Except.map] using refused
  · intro pieces written
    rw [Program.template] at written
    cases ran : Step.runAll program.steps {} with
    | error cause writer => simp [ran] at written
    | ok _ writer =>
        obtain rfl : writer.output.toList = pieces := by simpa [ran] using written
        obtain ⟨grown, output, nested⟩ := Step.runAll_grows program.steps ran
        have layout := Step.runAll_laid program.steps ran
        rw [program.layoutAll_steps] at layout
        exact ⟨by simpa using output ▸ nested.leveled, layout⟩

theorem styles_fill_one_template_branch :
    let program : Program :=
      ⟨[.cond (.ident "a" {})
        (.var .var [.mk "x" (some (.object [.named (.ident "k")
          (.arrowBlock [] [.ret none {}] {} {}) false] {})) {}] {})
        (some (.empty {})) {}], {}⟩
    ∃ pieces, program.template = .ok pieces ∧ Leveled 0 pieces ∧
      pieces.filter Piece.isLayout =
        [.openBrace, .newline 1, .openBrace, .newline 2, .newline 1, .closeBrace, .newline 0,
          .closeBrace, .newline 0] := by
  intro program
  exact ⟨_, rfl, (styles_fill_one_template program).2.2 _ rfl⟩

end Freshen
