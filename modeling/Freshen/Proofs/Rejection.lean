import Freshen.Proofs.Writing

/-!
What cannot be written, read off the tree alone. A program is written exactly when it has no such
node, and otherwise the cause is the one that a reader of the source meets first.
-/

namespace Freshen

def emptyGroup (span : Span) : Unsupported := ⟨"VariableDeclaration (empty)", span⟩

mutual

/-- The nodes inside that cannot be written, in the order of the source. Declarators after the
first of a group are never written, so nothing in them counts. -/
def Expr.offenders : Expr → List Unsupported
  | .array elements _ => elementOffenders elements
  | .object properties _ => propertyOffenders properties
  | .function _ _ body _ _ | .arrowBlock _ body _ _ => stmtsOffenders body
  | .arrow _ arg _ _ | .unary _ arg _ | .update _ _ arg _ | .member arg _ _ => arg.offenders
  | .binary _ left right _ | .assign _ left right _ | .index left right _ =>
    left.offenders ++ right.offenders
  | .conditional test consequent alternate _ =>
    test.offenders ++ consequent.offenders ++ alternate.offenders
  | .sequence exprs _ => exprsOffenders exprs
  | .call callee args _ | .new callee args _ => callee.offenders ++ exprsOffenders args
  | .unsupported kind span => [⟨kind, span⟩]
  | _ => []

def exprsOffenders : List Expr → List Unsupported
  | [] => []
  | expr :: rest => expr.offenders ++ exprsOffenders rest

def optionalOffenders : Option Expr → List Unsupported
  | none => []
  | some expr => expr.offenders

def elementOffenders : List (Option Expr) → List Unsupported
  | [] => []
  | element :: rest => optionalOffenders element ++ elementOffenders rest

def propertyOffenders : List Property → List Unsupported
  | [] => []
  | property :: rest => property.offenders ++ propertyOffenders rest

def Property.offenders : Property → List Unsupported
  | .named _ value _ => value.offenders
  | .computed key value _ => key.offenders ++ value.offenders

def Stmt.offenders : Stmt → List Unsupported
  | .var _ decls span => declOffenders span decls
  | .function _ _ body _ _ | .block body _ => stmtsOffenders body
  | .cond test consequent alternate _ =>
    test.offenders ++ consequent.offenders ++ alternateOffenders alternate
  | .loop init test update body span =>
    init.offenders span ++ optionalOffenders test ++ optionalOffenders update ++ body.offenders
  | .whileLoop test body _ => test.offenders ++ body.offenders
  | .doWhile body test _ => body.offenders ++ test.offenders
  | .ret arg _ => optionalOffenders arg
  | .throw arg _ | .expr arg _ => arg.offenders
  | .unsupported kind span => [⟨kind, span⟩]
  | _ => []

def alternateOffenders : Option Stmt → List Unsupported
  | none => []
  | some stmt => stmt.offenders

def stmtsOffenders : List Stmt → List Unsupported
  | [] => []
  | stmt :: rest => stmt.offenders ++ stmtsOffenders rest

def declOffenders (span : Span) : List Declarator → List Unsupported
  | [] => [emptyGroup span]
  | .mk _ init _ :: _ => optionalOffenders init

def LoopInit.offenders (span : Span) : LoopInit → List Unsupported
  | .absent => []
  | .decl _ decls => declOffenders span decls
  | .expr expr => expr.offenders

end

def Program.offenders (program : Program) : List Unsupported := stmtsOffenders program.body

def cause? : Written → Option Unsupported
  | .ok _ _ => none
  | .error cause _ => some cause

namespace Step

mutual

def causes : Step → List Unsupported
  | framed body | braced body => causesAll body
  | reject cause => [cause]
  | _ => []

def causesAll : List Step → List Unsupported
  | [] => []
  | step :: rest => causes step ++ causesAll rest

end

@[simp] theorem causesAll_nil : causesAll [] = [] := rfl

@[simp] theorem causesAll_cons (step : Step) (rest : List Step) :
    causesAll (step :: rest) = causes step ++ causesAll rest := rfl

@[simp] theorem causesAll_append (first second : List Step) :
    causesAll (first ++ second) = causesAll first ++ causesAll second := by
  induction first with
  | nil => rfl
  | cons step rest ih => simp [ih]

@[simp] theorem causesAll_parenthesized (steps : List Step) :
    causesAll (parenthesized steps) = causesAll steps := by
  simp [parenthesized, causes]

mutual

/-- A step ends in the first of its causes, whatever the writer is. -/
theorem cause?_run (step : Step) (writer : Writer) :
    cause? (run step writer) = (causes step).head? := by
  match step with
  | text _ | newline | bind _ | declare _ | refer _ => rfl
  | framed body =>
      have inside := cause?_runAll body writer.enter
      rw [run, causes, ← inside]
      cases runAll body writer.enter with
      | ok _ after => rfl
      | error cause after => rfl
  | braced body =>
      have inside := cause?_runAll body writer.openBrace
      rw [run, causes, ← inside]
      cases runAll body writer.openBrace with
      | ok _ after => rfl
      | error cause after => rfl
  | reject cause => rfl

theorem cause?_runAll (steps : List Step) (writer : Writer) :
    cause? (runAll steps writer) = (causesAll steps).head? := by
  match steps with
  | [] => rfl
  | step :: rest =>
      have start := cause?_run step writer
      rw [runAll, causesAll, List.head?_append, ← start]
      cases run step writer with
      | ok _ after => exact cause?_runAll rest after
      | error cause after => rfl

end

end Step

open Step

theorem causesAll_asOperand (expr : Expr) (steps : List Step) :
    causesAll (expr.asOperand steps) = causesAll steps := by
  rw [Expr.asOperand]
  split
  · rfl
  · exact causesAll_parenthesized steps

theorem causesAll_asConstructor (expr : Expr) (steps : List Step) :
    causesAll (expr.asConstructor steps) = causesAll steps := by
  rw [Expr.asConstructor]
  split
  · rfl
  · exact causesAll_parenthesized steps

theorem causesAll_asLeft (expr : Expr) (op : BinaryOp) (steps : List Step) :
    causesAll (expr.asLeft op steps) = causesAll steps := by
  rw [Expr.asLeft]
  split
  · exact causesAll_parenthesized steps
  · rfl

@[simp] theorem causesAll_hoistSteps (body : List Stmt) : causesAll (hoistSteps body) = [] := by
  rw [hoistSteps]
  induction body.filterMap Stmt.hoistedName with
  | nil => rfl
  | cons name rest ih => simpa [causes] using ih

@[simp] theorem causesAll_paramSteps (params : List Param) :
    causesAll (paramSteps params) = [] := by
  match params with
  | [] => rfl
  | [param] => rfl
  | first :: second :: rest =>
      rw [paramSteps_cons_cons, causesAll_append, causesAll_paramSteps (second :: rest)]
      rfl

@[simp] theorem causesAll_functionHead (name : Option String) :
    causesAll (functionHead name) = [] := by
  cases name <;> rfl

@[simp] theorem causesAll_propertyName (name : PropertyName) : causesAll name.steps = [] := by
  cases name <;> rfl

theorem causesAll_bodySteps (body : List Stmt) :
    causesAll (bodySteps body) = causesAll (lineSteps body) := by
  rw [bodySteps_eq]
  cases body with
  | nil => rfl
  | cons stmt rest => simp [causes]

mutual

theorem Expr.causesAll_steps (expr : Expr) : causesAll expr.steps = expr.offenders := by
  match expr with
  | .null _ | .bool _ _ | .number _ _ | .string _ _ | .regex _ _ _ | .ident _ _ =>
      simp [Expr.steps, Expr.offenders, causes]
  | .array elements _ =>
      simp [Expr.steps, Expr.offenders, causes, causesAll_elements elements]
  | .object properties _ =>
      simp [Expr.steps, Expr.offenders, causes, causesAll_properties properties]
  | .function name params body _ _ =>
      simp [Expr.steps, Expr.offenders, causes, causesAll_bodySteps, causesAll_lines body]
  | .arrow params result _ _ =>
      simp [Expr.steps, Expr.offenders, causes, result.causesAll_steps]
  | .arrowBlock params body _ _ =>
      simp [Expr.steps, Expr.offenders, causes, causesAll_bodySteps, causesAll_lines body]
  | .unary op arg _ => simp [Expr.steps, Expr.offenders, causes, arg.causesAll_steps]
  | .binary op left right _ =>
      simp [Expr.steps, Expr.offenders, causes, causesAll_asLeft, left.causesAll_steps,
        right.causesAll_steps]
  | .assign op target value _ =>
      simp [Expr.steps, Expr.offenders, causes, target.causesAll_steps, value.causesAll_steps]
  | .update op before arg _ =>
      cases before <;> simp [Expr.steps, Expr.offenders, causes, arg.causesAll_steps]
  | .conditional test consequent alternate _ =>
      simp [Expr.steps, Expr.offenders, causes, test.causesAll_steps, consequent.causesAll_steps,
        alternate.causesAll_steps]
  | .sequence exprs _ => simp [Expr.steps, Expr.offenders, causesAll_exprs exprs]
  | .member object name _ =>
      simp [Expr.steps, Expr.offenders, causes, causesAll_asOperand, object.causesAll_steps]
  | .index object property _ =>
      simp [Expr.steps, Expr.offenders, causes, causesAll_asOperand, object.causesAll_steps,
        property.causesAll_steps]
  | .call callee args _ =>
      simp [Expr.steps, Expr.offenders, causesAll_asOperand, callee.causesAll_steps,
        causesAll_exprs args]
  | .new callee args _ =>
      simp [Expr.steps, Expr.offenders, causes, causesAll_asConstructor, callee.causesAll_steps,
        causesAll_exprs args]
  | .unsupported kind span => simp [Expr.steps, Expr.offenders, causes]

theorem causesAll_exprs (exprs : List Expr) :
    causesAll (exprsSteps exprs) = exprsOffenders exprs := by
  match exprs with
  | [] => simp [exprsSteps, exprsOffenders]
  | [expr] => simp [exprsSteps, exprsOffenders, expr.causesAll_steps]
  | expr :: following :: rest =>
      rw [exprsSteps_cons_cons, exprsOffenders]
      simp [causes, expr.causesAll_steps, causesAll_exprs (following :: rest)]

theorem causesAll_optional (optional : Option Expr) :
    causesAll (optionalSteps optional) = optionalOffenders optional := by
  match optional with
  | none => simp [optionalSteps, optionalOffenders]
  | some expr => simp [optionalSteps, optionalOffenders, causes, expr.causesAll_steps]

theorem causesAll_elements (elements : List (Option Expr)) :
    causesAll (elementSteps elements) = elementOffenders elements := by
  match elements with
  | [] => simp [elementSteps, elementOffenders]
  | [none] => simp [elementSteps, elementOffenders, optionalOffenders, causes]
  | [some expr] =>
      simp [elementSteps, elementOffenders, optionalOffenders, expr.causesAll_steps]
  | none :: following :: rest =>
      rw [elementSteps_hole_cons, elementOffenders]
      simp [optionalOffenders, causes, causesAll_elements (following :: rest)]
  | some expr :: following :: rest =>
      rw [elementSteps_cons_cons, elementOffenders]
      simp [optionalOffenders, causes, expr.causesAll_steps,
        causesAll_elements (following :: rest)]

theorem causesAll_properties (properties : List Property) :
    causesAll (propertySteps properties) = propertyOffenders properties := by
  match properties with
  | [] => simp [propertySteps, propertyOffenders]
  | [property] => simp [propertySteps, propertyOffenders, property.causesAll_steps]
  | property :: following :: rest =>
      rw [propertySteps_cons_cons, propertyOffenders]
      simp [causes, property.causesAll_steps, causesAll_properties (following :: rest)]

theorem Property.causesAll_steps (property : Property) :
    causesAll property.steps = property.offenders := by
  match property with
  | .named name value _ =>
      simp [Property.steps, Property.offenders, causes, value.causesAll_steps]
  | .computed key value _ =>
      simp [Property.steps, Property.offenders, causes, key.causesAll_steps, value.causesAll_steps]

theorem Stmt.causesAll_steps (stmt : Stmt) : causesAll stmt.steps = stmt.offenders := by
  match stmt with
  | .var kind decls span =>
      simp [Stmt.steps, Stmt.offenders, causes, causesAll_decls kind span decls]
  | .function name params body _ _ =>
      cases name <;>
        simp [Stmt.steps, Stmt.offenders, causes, causesAll_bodySteps, causesAll_lines body]
  | .block body _ =>
      simp [Stmt.steps, Stmt.offenders, causes, causesAll_bodySteps, causesAll_lines body]
  | .cond test consequent none _ =>
      simp [Stmt.steps, Stmt.offenders, alternateOffenders, causes, test.causesAll_steps,
        consequent.causesAll_steps]
  | .cond test consequent (some alternate) _ =>
      cases braces : consequent.isBlock <;>
        simp [Stmt.steps, Stmt.offenders, alternateOffenders, causes, test.causesAll_steps,
          consequent.causesAll_steps, alternate.causesAll_steps, braces]
  | .loop init test update body span =>
      rw [Stmt.steps_loop]
      simp [Stmt.offenders, causes, init.causesAll_steps span, causesAll_optional test,
        causesAll_optional update, body.causesAll_steps]
  | .whileLoop test body _ =>
      simp [Stmt.steps, Stmt.offenders, causes, test.causesAll_steps, body.causesAll_steps]
  | .doWhile body test _ =>
      simp [Stmt.steps, Stmt.offenders, causes, test.causesAll_steps, body.causesAll_steps]
  | .exitLoop _ | .nextLoop _ | .empty _ => simp [Stmt.steps, Stmt.offenders, causes]
  | .ret none _ => simp [Stmt.steps, Stmt.offenders, optionalOffenders, causes]
  | .ret (some arg) _ =>
      simp [Stmt.steps, Stmt.offenders, optionalOffenders, causes, arg.causesAll_steps]
  | .throw arg _ => simp [Stmt.steps, Stmt.offenders, causes, arg.causesAll_steps]
  | .expr arg _ => simp [Stmt.steps, Stmt.offenders, causes, arg.causesAll_steps]
  | .unsupported kind span => simp [Stmt.steps, Stmt.offenders, causes]

theorem causesAll_lines (body : List Stmt) : causesAll (lineSteps body) = stmtsOffenders body := by
  match body with
  | [] => simp [lineSteps, stmtsOffenders]
  | stmt :: rest =>
      simp [lineSteps, stmtsOffenders, causes, stmt.causesAll_steps, causesAll_lines rest]

theorem causesAll_decls (kind : DeclKind) (span : Span) (decls : List Declarator) :
    causesAll (declSteps kind span decls) = declOffenders span decls := by
  match decls with
  | [] => simp [declSteps, declOffenders, emptyGroup, causes]
  | .mk name none _ :: _ => simp [declSteps, declOffenders, optionalOffenders, causes]
  | .mk name (some init) _ :: _ =>
      simp [declSteps, declOffenders, optionalOffenders, causes, init.causesAll_steps]

theorem LoopInit.causesAll_steps (init : LoopInit) (span : Span) :
    causesAll (init.steps span) = init.offenders span := by
  match init with
  | .absent => simp [LoopInit.steps, LoopInit.offenders]
  | .decl kind decls =>
      simp [LoopInit.steps, LoopInit.offenders, causesAll_decls kind span decls]
  | .expr expr => simp [LoopInit.steps, LoopInit.offenders, expr.causesAll_steps]

end

theorem Program.causesAll_steps (program : Program) :
    causesAll program.steps = program.offenders := by
  have lines (body : List Stmt) :
      causesAll (body.flatMap fun stmt => stmt.steps ++ [.newline]) = stmtsOffenders body := by
    induction body with
    | nil => simp [stmtsOffenders]
    | cons stmt rest ih => simp [stmtsOffenders, causes, stmt.causesAll_steps, ih]
  rw [Program.steps, causesAll_append, causesAll_hoistSteps, lines, List.nil_append,
    Program.offenders]

/-- What becomes of a program: it is refused for its first offender, or written if it has none. -/
theorem Program.transform_cases (program : Program) (style : Style) :
    (∃ text, program.transform style = .ok text ∧ program.offenders.head? = none) ∨
      ∃ cause, program.transform style = .error cause ∧ program.offenders.head? = some cause := by
  have outcome := cause?_runAll program.steps {}
  rw [program.causesAll_steps] at outcome
  rw [Program.transform, Program.template, ← outcome]
  cases runAll program.steps {} with
  | ok _ writer => exact .inl ⟨_, rfl, rfl⟩
  | error cause writer => exact .inr ⟨cause, rfl, rfl⟩

theorem offenders_eq_nil_of_transform {program : Program} {style : Style} {text : String}
    (written : program.transform style = .ok text) : program.offenders = [] := by
  rcases program.transform_cases style with ⟨_, _, none⟩ | ⟨cause, failed, _⟩
  · exact List.head?_eq_none_iff.mp none
  · cases written.symm.trans failed

theorem head?_offenders_of_transform {program : Program} {style : Style} {cause : Unsupported}
    (failed : program.transform style = .error cause) :
    program.offenders.head? = some cause := by
  rcases program.transform_cases style with ⟨text, written, _⟩ | ⟨other, same, first⟩
  · cases failed.symm.trans written
  · cases failed.symm.trans same
    exact first

/-- A program is written exactly if nothing in it offends, in any style, and otherwise it is the
first offender that is reported. -/
theorem transform_rejects_first_offender (program : Program) (style : Style) :
    ((∃ text, program.transform style = .ok text) ↔ program.offenders = []) ∧
      ∀ cause, program.transform style = .error cause ↔ program.offenders.head? = some cause := by
  refine ⟨⟨fun ⟨_, written⟩ => offenders_eq_nil_of_transform written, fun none => ?_⟩,
    fun cause => ⟨head?_offenders_of_transform, fun first => ?_⟩⟩
  · rcases program.transform_cases style with ⟨text, written, _⟩ | ⟨cause, _, first⟩
    · exact ⟨text, written⟩
    · simp [none] at first
  · rcases program.transform_cases style with ⟨_, _, none⟩ | ⟨other, failed, same⟩
    · cases first.symm.trans none
    · cases first.symm.trans same
      exact failed

end Freshen
