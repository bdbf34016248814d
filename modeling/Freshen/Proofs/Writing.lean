import Freshen.Code.Draft

/-!
Carrying out steps: a list of steps is carried out part by part, and what is written stays. Beside
the writer stands a plain one that keeps no scopes and writes every name as it is given.
-/

namespace Freshen

namespace Style

@[simp] theorem render_nil (style : Style) : style.render [] = "" := rfl

theorem render_append (style : Style) (left right : List Piece) :
    style.render (left ++ right) = style.render left ++ style.render right := by
  simp [Style.render, String.join_append]

theorem render_singleton (style : Style) (piece : Piece) :
    style.render [piece] = piece.render style := by
  simp [Style.render]

end Style

theorem Writer.output_write (writer : Writer) (piece : Piece) :
    (writer.write piece).output.toList = writer.output.toList ++ [piece] := by
  simp [Writer.write]

namespace Step

theorem runAll_append (first second : List Step) (writer : Writer) :
    runAll (first ++ second) writer =
      match runAll first writer with
      | .ok _ after => runAll second after
      | .error cause after => .error cause after := by
  induction first generalizing writer with
  | nil => rfl
  | cons step rest ih =>
      rw [List.cons_append, runAll, runAll]
      cases run step writer with
      | ok _ after => exact ih after
      | error cause after => rfl

theorem runAll_singleton (step : Step) (writer : Writer) :
    runAll [step] writer = run step writer := by
  rw [runAll]
  cases run step writer with
  | ok _ after => rfl
  | error cause after => rfl

/-! Steps that end in success, part by part. -/

section Success

variable {writer after : Writer}

theorem runAll_append_eq_ok {first second : List Step} :
    runAll (first ++ second) writer = .ok () after ↔
      ∃ middle, runAll first writer = .ok () middle ∧ runAll second middle = .ok () after := by
  rw [runAll_append]
  cases runAll first writer with
  | ok _ middle => simp
  | error cause middle => simp

theorem runAll_cons_eq_ok {step : Step} {rest : List Step} :
    runAll (step :: rest) writer = .ok () after ↔
      ∃ middle, run step writer = .ok () middle ∧ runAll rest middle = .ok () after := by
  rw [← List.singleton_append, runAll_append_eq_ok, runAll_singleton]

theorem run_framed_eq_ok {body : List Step} :
    run (framed body) writer = .ok () after ↔
      ∃ inside, runAll body writer.enter = .ok () inside ∧ inside.exit = after := by
  rw [run]
  cases runAll body writer.enter with
  | ok _ inside => simp
  | error cause inside => simp

theorem run_braced_eq_ok {body : List Step} :
    run (braced body) writer = .ok () after ↔
      ∃ inside, runAll body writer.openBrace = .ok () inside ∧ inside.closeBrace = after := by
  rw [run]
  cases runAll body writer.openBrace with
  | ok _ inside => simp
  | error cause inside => simp

end Success

mutual

/-- What a step writes if no scopes are kept: every name stands as it is. -/
def plain (level : Nat) : Step → Except Unsupported (List Piece)
  | text content => .ok [.text content]
  | newline => .ok [.newline level]
  | bind _ => .ok []
  | declare name | refer name => .ok [.text name]
  | framed body => plainAll level body
  | braced body =>
    (plainAll (level + 1) body).map fun inside =>
      [.openBrace] ++ inside ++ [.newline level, .closeBrace]
  | reject cause => .error cause

def plainAll (level : Nat) : List Step → Except Unsupported (List Piece)
  | [] => .ok []
  | step :: rest =>
    (plain level step).bind fun pieces => (plainAll level rest).map (pieces ++ ·)

end

theorem plainAll_append (level : Nat) (first second : List Step) :
    plainAll level (first ++ second) =
      (plainAll level first).bind fun pieces => (plainAll level second).map (pieces ++ ·) := by
  induction first with
  | nil =>
      rw [List.nil_append, plainAll, Except.bind]
      cases plainAll level second with
      | ok pieces => rfl
      | error cause => rfl
  | cons step rest ih =>
      rw [List.cons_append, plainAll, plainAll, ih]
      cases plain level step with
      | error cause => rfl
      | ok pieces =>
          cases plainAll level rest with
          | error cause => rfl
          | ok more =>
              cases plainAll level second with
              | error cause => rfl
              | ok last => simp [Except.bind, Except.map]

theorem plainAll_singleton (level : Nat) (step : Step) :
    plainAll level [step] = plain level step := by
  rw [plainAll, plainAll]
  cases plain level step with
  | ok pieces => simp [Except.bind, Except.map]
  | error cause => rfl

end Step

/-! Lists divided by commas, from two items on. -/

theorem paramSteps_cons_cons (first second : Param) (rest : List Param) :
    paramSteps (first :: second :: rest) =
      [.declare first.name, .text ", "] ++ paramSteps (second :: rest) := by
  rw [paramSteps]
  simp

theorem exprsSteps_cons_cons (first second : Expr) (rest : List Expr) :
    exprsSteps (first :: second :: rest) =
      first.steps ++ [.text ", "] ++ exprsSteps (second :: rest) := by
  rw [exprsSteps]
  simp

theorem propertySteps_cons_cons (first second : Property) (rest : List Property) :
    propertySteps (first :: second :: rest) =
      first.steps ++ [.text ", "] ++ propertySteps (second :: rest) := by
  rw [propertySteps]
  simp

def divided : List (List Step) → List Step
  | [] => []
  | [item] => item
  | item :: rest => item ++ [.text ", "] ++ divided rest

theorem divided_cons_cons (first second : List Step) (rest : List (List Step)) :
    divided (first :: second :: rest) = first ++ [.text ", "] ++ divided (second :: rest) := by
  rw [divided]
  simp

theorem paramSteps_eq_divided (params : List Param) :
    paramSteps params = divided (params.map fun param => [.declare param.name]) := by
  induction params with
  | nil => rfl
  | cons first rest ih =>
      cases rest with
      | nil => rfl
      | cons second rest =>
          rw [paramSteps_cons_cons, ih]
          exact (divided_cons_cons [.declare first.name] _ _).symm

theorem exprsSteps_eq_divided (exprs : List Expr) :
    exprsSteps exprs = divided (exprs.map Expr.steps) := by
  induction exprs with
  | nil => rw [exprsSteps]; rfl
  | cons first rest ih =>
      cases rest with
      | nil => rw [exprsSteps]; rfl
      | cons second rest =>
          rw [exprsSteps_cons_cons, ih]
          exact (divided_cons_cons _ _ _).symm

theorem propertySteps_eq_divided (properties : List Property) :
    propertySteps properties = divided (properties.map Property.steps) := by
  induction properties with
  | nil => rw [propertySteps]; rfl
  | cons first rest ih =>
      cases rest with
      | nil => rw [propertySteps]; rfl
      | cons second rest =>
          rw [propertySteps_cons_cons, ih]
          exact (divided_cons_cons _ _ _).symm

theorem elementSteps_hole_cons (second : Option Expr) (rest : List (Option Expr)) :
    elementSteps (none :: second :: rest) = [.text ", "] ++ elementSteps (second :: rest) := by
  rw [elementSteps]
  simp

theorem elementSteps_cons_cons (first : Expr) (second : Option Expr) (rest : List (Option Expr)) :
    elementSteps (some first :: second :: rest) =
      first.steps ++ [.text ", "] ++ elementSteps (second :: rest) := by
  rw [elementSteps]
  simp

theorem bodySteps_eq (body : List Stmt) :
    bodySteps body =
      if body.isEmpty then [.text "\x7b\x7d"] else [.braced (lineSteps body)] := by
  cases body with
  | nil => rw [bodySteps]; rfl
  | cons stmt rest => rw [bodySteps, lineSteps]; rfl

def optionalSteps : Option Expr → List Step
  | none => []
  | some expr => [.text " "] ++ expr.steps

theorem Stmt.steps_loop (init : LoopInit) (test update : Option Expr) (body : Stmt) (span : Span) :
    (Stmt.loop init test update body span).steps =
      [.framed ([.text "for ("] ++ (init.steps span ++ ([.text ";"] ++ (optionalSteps test ++
        ([.text ";"] ++ (optionalSteps update ++ ([.text ") "] ++ body.steps)))))))] := by
  cases test <;> cases update <;> simp [Stmt.steps, optionalSteps]

def Program.printed (program : Program) (style : Style) : Except Unsupported String :=
  (Step.plainAll 0 program.steps).map style.render

/-- A program that is transformed is written, and its text is what is written. -/
theorem Program.written_of_transform (program : Program) {style : Style} {text : String}
    (transformed : program.transform style = .ok text) :
    ∃ writer, Step.runAll program.steps {} = .ok () writer ∧
      text = style.render writer.output.toList := by
  rw [transform, template] at transformed
  cases ran : Step.runAll program.steps {} with
  | error cause writer =>
      rw [ran] at transformed
      cases transformed
  | ok _ writer =>
      rw [ran] at transformed
      exact ⟨writer, rfl, (Except.ok.inj transformed).symm⟩

end Freshen
