import Freshen.Proofs.Trace

/-!
Arrows are written as functions. A program and the same program with a function in the place of
every arrow have the same text, up to where its lines are broken, and the same names.
-/

namespace Freshen

mutual

def Expr.lowered : Expr → Expr
  | .array elements span => .array (loweredElements elements) span
  | .object properties span => .object (loweredProperties properties) span
  | .function name params body inner span => .function name params (loweredStmts body) inner span
  | .arrow params result inner span =>
    .function none params [.ret (some result.lowered) inner] inner span
  | .arrowBlock params body inner span => .function none params (loweredStmts body) inner span
  | .unary op arg span => .unary op arg.lowered span
  | .binary op left right span => .binary op left.lowered right.lowered span
  | .assign op target value span => .assign op target.lowered value.lowered span
  | .update op before arg span => .update op before arg.lowered span
  | .conditional test consequent alternate span =>
    .conditional test.lowered consequent.lowered alternate.lowered span
  | .sequence exprs span => .sequence (loweredExprs exprs) span
  | .member object name span => .member object.lowered name span
  | .index object property span => .index object.lowered property.lowered span
  | .call callee args span => .call callee.lowered (loweredExprs args) span
  | .new callee args span => .new callee.lowered (loweredExprs args) span
  | leaf => leaf

def loweredExprs : List Expr → List Expr
  | [] => []
  | expr :: rest => expr.lowered :: loweredExprs rest

def loweredOptional : Option Expr → Option Expr
  | none => none
  | some expr => some expr.lowered

def loweredElements : List (Option Expr) → List (Option Expr)
  | [] => []
  | element :: rest => loweredOptional element :: loweredElements rest

def loweredProperties : List Property → List Property
  | [] => []
  | property :: rest => property.lowered :: loweredProperties rest

def Property.lowered : Property → Property
  | .named name value shorthand => .named name value.lowered shorthand
  | .computed key value shorthand => .computed key.lowered value.lowered shorthand

def Stmt.lowered : Stmt → Stmt
  | .var kind decls span => .var kind (loweredDecls decls) span
  | .function name params body inner span => .function name params (loweredStmts body) inner span
  | .block body span => .block (loweredStmts body) span
  | .cond test consequent alternate span =>
    .cond test.lowered consequent.lowered (loweredAlternate alternate) span
  | .loop init test update body span =>
    .loop init.lowered (loweredOptional test) (loweredOptional update) body.lowered span
  | .whileLoop test body span => .whileLoop test.lowered body.lowered span
  | .doWhile body test span => .doWhile body.lowered test.lowered span
  | .ret arg span => .ret (loweredOptional arg) span
  | .throw arg span => .throw arg.lowered span
  | .expr expr span => .expr expr.lowered span
  | leaf => leaf

def loweredAlternate : Option Stmt → Option Stmt
  | none => none
  | some stmt => some stmt.lowered

def loweredStmts : List Stmt → List Stmt
  | [] => []
  | stmt :: rest => stmt.lowered :: loweredStmts rest

def loweredDecls : List Declarator → List Declarator
  | [] => []
  | .mk name init span :: rest => .mk name (loweredOptional init) span :: loweredDecls rest

def LoopInit.lowered : LoopInit → LoopInit
  | .absent => .absent
  | .decl kind decls => .decl kind (loweredDecls decls)
  | .expr expr => .expr expr.lowered

end

def Program.lowered (program : Program) : Program :=
  { program with body := loweredStmts program.body }

/-! What decides about parentheses, braces and hoisting stays. -/

theorem Expr.isSelfDelimited_lowered (expr : Expr) :
    expr.lowered.isSelfDelimited = expr.isSelfDelimited := by
  cases expr <;> simp only [Expr.lowered] <;> rfl

theorem Expr.isIdent_lowered (expr : Expr) : expr.lowered.isIdent = expr.isIdent := by
  cases expr <;> simp only [Expr.lowered] <;> rfl

theorem Expr.isUnary_lowered (expr : Expr) : expr.lowered.isUnary = expr.isUnary := by
  cases expr <;> simp only [Expr.lowered] <;> rfl

theorem Stmt.isBlock_lowered (stmt : Stmt) : stmt.lowered.isBlock = stmt.isBlock := by
  cases stmt <;> simp only [Stmt.lowered] <;> rfl

theorem Stmt.hoistedName_lowered (stmt : Stmt) : stmt.lowered.hoistedName = stmt.hoistedName := by
  cases stmt with
  | var kind decls span =>
      rcases decls with _ | ⟨⟨name, init, place⟩, rest⟩ <;>
        simp [Stmt.lowered, loweredDecls, Stmt.hoistedName, Declarator.name]
  | _ => simp only [Stmt.lowered] <;> rfl

theorem hoistSteps_lowered (body : List Stmt) :
    hoistSteps (loweredStmts body) = hoistSteps body := by
  rw [hoistSteps, hoistSteps]
  congr 1
  induction body with
  | nil => simp only [loweredStmts]
  | cons stmt rest ih =>
      rw [loweredStmts, List.filterMap_cons, List.filterMap_cons, stmt.hoistedName_lowered, ih]

theorem returning_steps (result : Expr) (span : Span) :
    hoistSteps [.ret (some result) span] ++ bodySteps [.ret (some result) span] =
      [.braced ([.newline, .text "return "] ++ result.steps ++ [.text ";"])] := by
  rw [bodySteps, lineSteps, Stmt.steps]
  simp [hoistSteps, Stmt.hoistedName]

namespace Step

def isLeaf : Step → Bool
  | framed _ | braced _ => false
  | _ => true

/-- The second list of steps breaks more lines: the result of an arrow stands on a line of its own
there. -/
inductive Relaid : List Step → List Step → Prop
  | nil : Relaid [] []
  | leaf {step : Step} {rest others : List Step} :
    step.isLeaf = true → Relaid rest others → Relaid (step :: rest) (step :: others)
  | framed {body other rest others : List Step} :
    Relaid body other → Relaid rest others → Relaid (framed body :: rest) (framed other :: others)
  | braced {body other rest others : List Step} :
    Relaid body other → Relaid rest others → Relaid (braced body :: rest) (braced other :: others)
  | result {body other rest others : List Step} :
    Relaid body other → Relaid rest others →
    Relaid ([text " \x7b return "] ++ (body ++ ([text "; \x7d"] ++ rest)))
      ([text " ", braced ([newline, text "return "] ++ other ++ [text ";"])] ++ others)

namespace Relaid

mutual

theorem cons (step : Step) {rest others : List Step} (tail : Relaid rest others) :
    Relaid (step :: rest) (step :: others) := by
  match step with
  | .framed body => exact framed (refl body) tail
  | .braced body => exact braced (refl body) tail
  | .text _ | .newline | .bind _ | .declare _ | .refer _ | .reject _ => exact leaf rfl tail

theorem refl (steps : List Step) : Relaid steps steps := by
  match steps with
  | [] => exact nil
  | step :: rest => exact cons step (refl rest)

end

variable {steps others more rest : List Step}

theorem append (left : Relaid steps others) (right : Relaid more rest) :
    Relaid (steps ++ more) (others ++ rest) := by
  induction left with
  | nil => exact right
  | leaf simple _ ih => exact leaf simple ih
  | framed body _ _ ih => exact framed body ih
  | braced body _ _ ih => exact braced body ih
  | result body _ _ ih => simpa using result body ih

theorem between (before : List Step) (inside : Relaid steps others) (after : List Step) :
    Relaid (before ++ steps ++ after) (before ++ others ++ after) :=
  ((refl before).append inside).append (refl after)

theorem parenthesized (inside : Relaid steps others) :
    Relaid (Freshen.parenthesized steps) (Freshen.parenthesized others) :=
  between _ inside _

theorem asOperand {expr : Expr} (inside : Relaid steps others) :
    Relaid (expr.asOperand steps) (expr.lowered.asOperand others) := by
  rw [Expr.asOperand, Expr.asOperand, expr.isSelfDelimited_lowered]
  split
  · exact inside
  · exact inside.parenthesized

theorem asConstructor {expr : Expr} (inside : Relaid steps others) :
    Relaid (expr.asConstructor steps) (expr.lowered.asConstructor others) := by
  rw [Expr.asConstructor, Expr.asConstructor, expr.isIdent_lowered]
  split
  · exact inside
  · exact inside.parenthesized

theorem asLeft {expr : Expr} {op : BinaryOp} (inside : Relaid steps others) :
    Relaid (expr.asLeft op steps) (expr.lowered.asLeft op others) := by
  rw [Expr.asLeft, Expr.asLeft, expr.isUnary_lowered]
  split
  · exact inside.parenthesized
  · exact inside

theorem body {stmts : List Stmt}
    (lines : Relaid (lineSteps stmts) (lineSteps (loweredStmts stmts))) :
    Relaid (hoistSteps stmts ++ bodySteps stmts)
      (hoistSteps (loweredStmts stmts) ++ bodySteps (loweredStmts stmts)) := by
  rw [hoistSteps_lowered, bodySteps_eq, bodySteps_eq]
  cases stmts with
  | nil =>
      rw [loweredStmts]
      exact refl _
  | cons stmt rest =>
      rw [loweredStmts] at lines ⊢
      exact (refl _).append (braced lines nil)

end Relaid

end Step

open Step

mutual

theorem Expr.relaid (expr : Expr) : Relaid expr.steps expr.lowered.steps := by
  match expr with
  | .null _ | .bool _ _ | .number _ _ | .string _ _ | .regex _ _ _ | .ident _ _
  | .unsupported _ _ =>
      simp only [Expr.lowered]
      exact .refl _
  | .array elements _ =>
      simp only [Expr.lowered, Expr.steps]
      exact .between _ (elements_relaid elements) _
  | .object properties _ =>
      simp only [Expr.lowered, Expr.steps]
      exact .between _ (properties_relaid properties) _
  | .function name params body _ _ | .arrowBlock params body _ _ =>
      simp only [Expr.lowered, Expr.steps, List.append_assoc]
      exact .parenthesized (.framed ((Relaid.refl _).append ((Relaid.refl _).append
        ((Relaid.refl _).append (lines_relaid body).body))) .nil)
  | .arrow params result _ _ =>
      simp only [Expr.lowered, Expr.steps, List.append_assoc, returning_steps]
      exact .parenthesized (.framed ((Relaid.refl _).append ((Relaid.refl _).append
        (.result result.relaid .nil))) .nil)
  | .unary op arg _ =>
      simp only [Expr.lowered, Expr.steps]
      exact (Relaid.refl _).append arg.relaid.parenthesized
  | .binary op left right _ =>
      simp only [Expr.lowered, Expr.steps]
      exact ((left.relaid.asLeft.append (.refl _)).append right.relaid).parenthesized
  | .assign op target value _ =>
      simp only [Expr.lowered, Expr.steps]
      exact ((target.relaid.append (.refl _)).append value.relaid).parenthesized
  | .update op true arg _ =>
      simp only [Expr.lowered, Expr.steps]
      exact ((Relaid.refl _).append arg.relaid).parenthesized
  | .update op false arg _ =>
      simp only [Expr.lowered, Expr.steps]
      exact (arg.relaid.append (.refl _)).parenthesized
  | .conditional test consequent alternate _ =>
      simp only [Expr.lowered, Expr.steps]
      exact ((((test.relaid.append (.refl _)).append consequent.relaid).append (.refl _)).append
        alternate.relaid).parenthesized
  | .sequence exprs _ =>
      simp only [Expr.lowered, Expr.steps]
      exact (exprs_relaid exprs).parenthesized
  | .member object name _ =>
      simp only [Expr.lowered, Expr.steps]
      exact object.relaid.asOperand.append (.refl _)
  | .index object property _ =>
      simp only [Expr.lowered, Expr.steps]
      exact ((object.relaid.asOperand.append (.refl _)).append property.relaid).append (.refl _)
  | .call callee args _ =>
      simp only [Expr.lowered, Expr.steps]
      exact callee.relaid.asOperand.append (exprs_relaid args).parenthesized
  | .new callee args _ =>
      simp only [Expr.lowered, Expr.steps]
      exact ((Relaid.refl _).append callee.relaid.asConstructor).append
        (exprs_relaid args).parenthesized

theorem exprs_relaid (exprs : List Expr) :
    Relaid (exprsSteps exprs) (exprsSteps (loweredExprs exprs)) := by
  match exprs with
  | [] =>
      simp only [loweredExprs]
      exact .refl _
  | [expr] =>
      simp only [loweredExprs, exprsSteps]
      exact expr.relaid
  | expr :: following :: rest =>
      have others := exprs_relaid (following :: rest)
      simp only [loweredExprs, exprsSteps_cons_cons] at others ⊢
      exact (expr.relaid.append (.refl _)).append others

theorem optional_relaid (optional : Option Expr) :
    Relaid (optionalSteps optional) (optionalSteps (loweredOptional optional)) := by
  match optional with
  | none =>
      simp only [loweredOptional]
      exact .refl _
  | some expr =>
      simp only [loweredOptional, optionalSteps]
      exact (Relaid.refl _).append expr.relaid

theorem elements_relaid (elements : List (Option Expr)) :
    Relaid (elementSteps elements) (elementSteps (loweredElements elements)) := by
  match elements with
  | [] | [none] =>
      simp only [loweredElements, loweredOptional]
      exact .refl _
  | [some expr] =>
      simp only [loweredElements, loweredOptional, elementSteps]
      exact expr.relaid
  | none :: following :: rest =>
      have others := elements_relaid (following :: rest)
      simp only [loweredElements, loweredOptional, elementSteps_hole_cons] at others ⊢
      exact (Relaid.refl _).append others
  | some expr :: following :: rest =>
      have others := elements_relaid (following :: rest)
      simp only [loweredElements, loweredOptional, elementSteps_cons_cons] at others ⊢
      exact (expr.relaid.append (.refl _)).append others

theorem properties_relaid (properties : List Property) :
    Relaid (propertySteps properties) (propertySteps (loweredProperties properties)) := by
  match properties with
  | [] =>
      simp only [loweredProperties]
      exact .refl _
  | [property] =>
      simp only [loweredProperties, propertySteps]
      exact property.relaid
  | property :: following :: rest =>
      have others := properties_relaid (following :: rest)
      simp only [loweredProperties, propertySteps_cons_cons] at others ⊢
      exact (property.relaid.append (.refl _)).append others

theorem Property.relaid (property : Property) : Relaid property.steps property.lowered.steps := by
  match property with
  | .named name value _ =>
      simp only [Property.lowered, Property.steps]
      exact (Relaid.refl _).append value.relaid
  | .computed key value _ =>
      simp only [Property.lowered, Property.steps]
      exact (((Relaid.refl _).append key.relaid).append (.refl _)).append value.relaid

theorem Stmt.relaid (stmt : Stmt) : Relaid stmt.steps stmt.lowered.steps := by
  match stmt with
  | .var kind decls span =>
      simp only [Stmt.lowered, Stmt.steps]
      exact (decls_relaid kind span decls).append (.refl _)
  | .function name params body _ _ =>
      have rest := (Relaid.refl (Freshen.parenthesized (paramSteps params) ++ [.text " "])).append
        (lines_relaid body).body
      cases name with
      | none =>
          simp only [Stmt.lowered, Stmt.steps, List.append_assoc] at rest ⊢
          exact (Relaid.parenthesized (.framed ((Relaid.refl _).append rest) .nil)).append (.refl _)
      | some name =>
          simp only [Stmt.lowered, Stmt.steps, List.append_assoc] at rest ⊢
          exact (Relaid.refl _).append (.framed rest .nil)
  | .block body _ =>
      simp only [Stmt.lowered, Stmt.steps]
      exact .framed (lines_relaid body).body .nil
  | .cond test consequent none _ =>
      simp only [Stmt.lowered, loweredAlternate, Stmt.steps]
      exact (Relaid.between _ test.relaid _).append consequent.relaid
  | .cond test consequent (some alternate) _ =>
      simp only [Stmt.lowered, loweredAlternate, Stmt.steps, consequent.isBlock_lowered]
      refine (Relaid.between _ test.relaid _).append (.append (.append ?_ (.refl _))
        alternate.relaid)
      split
      · exact consequent.relaid
      · exact .braced ((Relaid.refl _).append consequent.relaid) .nil
  | .loop init test update body span =>
      simp only [Stmt.lowered, Stmt.steps_loop]
      exact .framed ((Relaid.refl _).append ((init.relaid span).append ((Relaid.refl _).append
        ((optional_relaid test).append ((Relaid.refl _).append ((optional_relaid update).append
          ((Relaid.refl _).append body.relaid))))))) .nil
  | .whileLoop test body _ =>
      simp only [Stmt.lowered, Stmt.steps]
      exact (Relaid.between _ test.relaid _).append body.relaid
  | .doWhile body test _ =>
      simp only [Stmt.lowered, Stmt.steps]
      exact ((Relaid.between _ body.relaid _).append test.relaid).append (.refl _)
  | .exitLoop _ | .nextLoop _ | .empty _ | .unsupported _ _ =>
      simp only [Stmt.lowered]
      exact .refl _
  | .ret none _ =>
      simp only [Stmt.lowered, loweredOptional]
      exact .refl _
  | .ret (some arg) _ =>
      simp only [Stmt.lowered, loweredOptional, Stmt.steps]
      exact .between _ arg.relaid _
  | .throw arg _ =>
      simp only [Stmt.lowered, Stmt.steps]
      exact .between _ arg.relaid _
  | .expr arg _ =>
      simp only [Stmt.lowered, Stmt.steps]
      exact arg.relaid.append (.refl _)

theorem lines_relaid (body : List Stmt) :
    Relaid (lineSteps body) (lineSteps (loweredStmts body)) := by
  match body with
  | [] =>
      simp only [loweredStmts]
      exact .refl _
  | stmt :: rest =>
      simp only [loweredStmts, lineSteps]
      exact ((Relaid.refl _).append stmt.relaid).append (lines_relaid rest)

theorem decls_relaid (kind : DeclKind) (span : Span) (decls : List Declarator) :
    Relaid (declSteps kind span decls) (declSteps kind span (loweredDecls decls)) := by
  match decls with
  | [] =>
      simp only [loweredDecls]
      exact .refl _
  | .mk name none _ :: _ =>
      simp only [loweredDecls, loweredOptional, declSteps]
      exact .refl _
  | .mk name (some init) _ :: _ =>
      simp only [loweredDecls, loweredOptional, declSteps]
      exact (Relaid.refl _).append init.relaid

theorem LoopInit.relaid (init : LoopInit) (span : Span) :
    Relaid (init.steps span) (init.lowered.steps span) := by
  match init with
  | .absent =>
      simp only [LoopInit.lowered]
      exact .refl _
  | .decl kind decls =>
      simp only [LoopInit.lowered, LoopInit.steps]
      exact decls_relaid kind span decls
  | .expr expr =>
      simp only [LoopInit.lowered, LoopInit.steps]
      exact expr.relaid

end

/-! Steps with the same names and, on one line, the same text. -/

theorem Step.Relaid.widthAll_eq {steps others : List Step} (relaid : Relaid steps others) :
    widthAll steps = widthAll others := by
  induction relaid with
  | nil => rfl
  | leaf simple _ ih => rw [widthAll, widthAll, ih]
  | framed _ _ body ih => rw [widthAll, widthAll, width, width, body, ih]
  | braced _ _ body ih => rw [widthAll, widthAll, width, width, body, ih]
  | result _ _ body ih => simp [widthAll_append, widthAll, width, body, ih]

theorem Step.Relaid.eventsAll_eq {steps others : List Step} (relaid : Relaid steps others)
    (frames : List Nat) (next : Nat) :
    eventsAll frames next steps = eventsAll frames next others := by
  induction relaid generalizing frames next with
  | nil => rfl
  | leaf simple _ ih => rw [eventsAll, eventsAll, ih]
  | framed inside _ body ih =>
      rw [eventsAll, eventsAll, events, events, width, width, body, ih, inside.widthAll_eq]
  | braced inside _ body ih =>
      rw [eventsAll, eventsAll, events, events, width, width, body, ih, inside.widthAll_eq]
  | result inside _ body ih =>
      simp [eventsAll_append, eventsAll, events, widthAll_append, widthAll, width,
        inside.widthAll_eq, body, ih]

def Piece.flat (style : Style) : Piece → String
  | newline _ => " "
  | piece => piece.render style

def Style.flat (style : Style) (pieces : List Piece) : String :=
  String.join (pieces.map (Piece.flat style))

/-- The writers have written the same, but for line breaks, and know the same names. -/
structure Writer.Alike (style : Style) (writer other : Writer) : Prop where
  context : writer.context = other.context
  flat : style.flat writer.output.toList = style.flat other.output.toList

inductive Written.Alike (style : Style) : Written → Written → Prop
  | ok {writer other : Writer} :
    writer.Alike style other → Alike style (.ok () writer) (.ok () other)
  | error (cause : Unsupported) (writer other : Writer) :
    Alike style (.error cause writer) (.error cause other)

section Alike

variable {style : Style} {writer other : Writer}

theorem Style.flat_append (style : Style) (left right : List Piece) :
    style.flat (left ++ right) = style.flat left ++ style.flat right := by
  simp [Style.flat, String.join_append]

namespace Writer.Alike

theorem write (alike : writer.Alike style other) (piece : Piece) :
    (writer.write piece).Alike style (other.write piece) where
  context := alike.context
  flat := by rw [output_write, output_write, style.flat_append, style.flat_append, alike.flat]

theorem of_context (alike : writer.Alike style other) (change : Context → Context) :
    Writer.Alike style { writer with context := change writer.context }
      { other with context := change other.context } where
  context := by rw [alike.context]
  flat := alike.flat

theorem newline (alike : writer.Alike style other) : writer.newline.Alike style other.newline where
  context := alike.context
  flat := by
    rw [Writer.newline, Writer.newline, output_write, output_write, style.flat_append,
      style.flat_append, alike.flat]
    rfl

theorem declare (alike : writer.Alike style other) (name : String) :
    (writer.declare name).2.Alike style (other.declare name).2 :=
  alike.of_context fun context => (context.declare name).2

theorem refer (alike : writer.Alike style other) (name : String) :
    (writer.refer name).Alike style (other.refer name) := by
  rw [Writer.refer, Writer.refer, alike.context]
  cases other.context.resolve? name with
  | none => exact alike.write _
  | some minted => exact alike.write _

theorem openBrace (alike : writer.Alike style other) :
    writer.openBrace.Alike style other.openBrace where
  context := alike.context
  flat := (alike.write .openBrace).flat

theorem closeBrace (alike : writer.Alike style other) :
    writer.closeBrace.Alike style other.closeBrace := by
  have lower : Writer.Alike style { writer with level := writer.level - 1 }
      { other with level := other.level - 1 } := ⟨alike.context, alike.flat⟩
  exact lower.newline.write .closeBrace

theorem run_leaf (alike : writer.Alike style other) {step : Step} (leaf : step.isLeaf = true) :
    Written.Alike style (run step writer) (run step other) := by
  cases step with
  | text content => exact .ok (alike.write _)
  | newline => exact .ok alike.newline
  | bind name => exact .ok (alike.declare name)
  | declare name =>
      have minted : (writer.context.declare name).1 = (other.context.declare name).1 := by
        rw [alike.context]
      refine .ok ?_
      change ((writer.declare name).2.write (.declaration (writer.context.declare name).1)).Alike
        style _
      rw [minted]
      exact (alike.declare name).write _
  | refer name => exact .ok (alike.refer name)
  | reject cause => exact .error cause _ _
  | framed body => cases leaf
  | braced body => cases leaf

theorem openResult (alike : writer.Alike style other) :
    (writer.write (.text " \x7b return ")).Alike style
      ((other.write (.text " ")).openBrace.newline.write (.text "return ")) where
  context := alike.context
  flat := by
    have written :
        ((other.write (.text " ")).openBrace.newline.write (.text "return ")).output.toList =
          other.output.toList ++
            [.text " ", .openBrace, .newline (other.level + 1), .text "return "] := by
      simp [Writer.openBrace, Writer.newline, Writer.write]
    rw [written, output_write, style.flat_append, style.flat_append, alike.flat]
    rfl

theorem closeResult (alike : writer.Alike style other) :
    (writer.write (.text "; \x7d")).Alike style (other.write (.text ";")).closeBrace where
  context := alike.context
  flat := by
    have written : (other.write (.text ";")).closeBrace.output.toList =
        other.output.toList ++ [.text ";", .newline (other.level - 1), .closeBrace] := by
      simp [Writer.closeBrace, Writer.newline, Writer.write]
    rw [written, output_write, style.flat_append, style.flat_append, alike.flat]
    rfl

end Writer.Alike

namespace Step

variable {steps others more rest : List Step}

theorem runAll_append_alike
    (first : Written.Alike style (runAll steps writer) (runAll others other))
    (second : ∀ {middle last : Writer}, middle.Alike style last →
      Written.Alike style (runAll more middle) (runAll rest last)) :
    Written.Alike style (runAll (steps ++ more) writer) (runAll (others ++ rest) other) := by
  rw [runAll_append, runAll_append]
  generalize runAll steps writer = left, runAll others other = right at first
  cases first with
  | ok alike => exact second alike
  | error cause middle last => exact .error cause middle last

theorem runAll_cons_alike {step change : Step}
    (first : Written.Alike style (run step writer) (run change other))
    (second : ∀ {middle last : Writer}, middle.Alike style last →
      Written.Alike style (runAll more middle) (runAll rest last)) :
    Written.Alike style (runAll (step :: more) writer) (runAll (change :: rest) other) := by
  rw [← runAll_singleton, ← runAll_singleton] at first
  exact runAll_append_alike first second

theorem run_framed_alike
    (inside : Written.Alike style (runAll steps writer.enter) (runAll others other.enter)) :
    Written.Alike style (run (framed steps) writer) (run (framed others) other) := by
  rw [run, run]
  generalize runAll steps writer.enter = left, runAll others other.enter = right at inside
  cases inside with
  | ok alike => exact .ok (alike.of_context fun context => context.exit?.getD context)
  | error cause => exact .error cause _ _

theorem run_braced_alike
    (inside : Written.Alike style (runAll steps writer.openBrace) (runAll others other.openBrace)) :
    Written.Alike style (run (braced steps) writer) (run (braced others) other) := by
  rw [run, run]
  generalize runAll steps writer.openBrace = left, runAll others other.openBrace = right at inside
  cases inside with
  | ok alike => exact .ok alike.closeBrace
  | error cause => exact .error cause _ _

theorem run_result_alike
    (inside : Written.Alike style (runAll steps (writer.write (.text " \x7b return ")))
      (runAll others ((other.write (.text " ")).openBrace.newline.write (.text "return ")))) :
    Written.Alike style (runAll ([text " \x7b return "] ++ (steps ++ [text "; \x7d"])) writer)
      (runAll [text " ", braced ([newline, text "return "] ++ others ++ [text ";"])] other) := by
  have left : runAll ([text " \x7b return "] ++ (steps ++ [text "; \x7d"])) writer =
      runAll (steps ++ [text "; \x7d"]) (writer.write (.text " \x7b return ")) := rfl
  have right : runAll [text " ", braced ([newline, text "return "] ++ others ++ [text ";"])] other =
      run (braced ([newline, text "return "] ++ others ++ [text ";"])) (other.write (.text " ")) :=
    runAll_singleton _ _
  have start : runAll ([newline, text "return "] ++ others ++ [text ";"])
      (other.write (.text " ")).openBrace = runAll (others ++ [text ";"])
        ((other.write (.text " ")).openBrace.newline.write (.text "return ")) := rfl
  rw [left, right, run, start, runAll_append, runAll_append]
  generalize runAll steps _ = first, runAll others _ = second at inside
  cases inside with
  | ok alike => exact .ok alike.closeResult
  | error cause => exact .error cause _ _

theorem Relaid.runAll_alike (relaid : Relaid steps others) (alike : writer.Alike style other) :
    Written.Alike style (runAll steps writer) (runAll others other) := by
  induction relaid generalizing writer other with
  | nil => exact .ok alike
  | leaf simple _ ih => exact runAll_cons_alike (alike.run_leaf simple) ih
  | framed _ _ body ih =>
      exact runAll_cons_alike (run_framed_alike (body (alike.of_context Context.enter))) ih
  | braced _ _ body ih => exact runAll_cons_alike (run_braced_alike (body alike.openBrace)) ih
  | result _ _ body ih =>
      have written := runAll_append_alike (run_result_alike (body alike.openResult)) ih
      simpa only [List.append_assoc] using written

end Step

end Alike

namespace Program

theorem relaid (program : Program) : Relaid program.steps program.lowered.steps := by
  rw [steps, steps, lowered, hoistSteps_lowered]
  apply (Relaid.refl _).append
  induction program.body with
  | nil =>
      rw [loweredStmts]
      exact .refl _
  | cons stmt rest ih =>
      rw [loweredStmts, List.flatMap_cons, List.flatMap_cons]
      exact (stmt.relaid.append (.refl _)).append ih

/-- A program and the program without arrows are written alike, or broken off for one cause. -/
theorem lowered_alike (program : Program) (style : Style) :
    Written.Alike style (runAll program.steps {}) (runAll program.lowered.steps {}) :=
  program.relaid.runAll_alike ⟨rfl, rfl⟩

end Program

end Freshen
