import Freshen.Proofs.Writing
import Mathlib.Logic.Function.Basic

/-!
Edits of a program that the writing follows: names are replaced one for one, spans and shorthand
flags are changed, declarators that are never written are dropped, and arrows with a block become
functions. The edited program is written as the program is, with the names replaced where they are
written, or it is refused for the same node. So what is never written has no effect, and what names
are called decides nothing.
-/

namespace Freshen

/-- A change to be made everywhere in a program. Different names stay different. -/
structure Edit where
  /-- What becomes of declared names and of references. -/
  name : String → String := id
  injective : Function.Injective name := by exact Function.injective_id
  span : Span → Span := id
  shorthand : Bool → Bool := id
  /-- Whether only the first declarator of a group is kept. -/
  firstOnly : Bool := false
  /-- Whether arrows with a block become functions without a name. -/
  plainFunctions : Bool := false

def Edit.param (edit : Edit) (param : Param) : Param :=
  ⟨edit.name param.name, edit.span param.span⟩

mutual

def Expr.edited (edit : Edit) : Expr → Expr
  | .null span => .null (edit.span span)
  | .bool value span => .bool value (edit.span span)
  | .number value span => .number value (edit.span span)
  | .string value span => .string value (edit.span span)
  | .regex pattern flags span => .regex pattern flags (edit.span span)
  | .ident name span => .ident (edit.name name) (edit.span span)
  | .array elements span => .array (editedElements edit elements) (edit.span span)
  | .object properties span => .object (editedProperties edit properties) (edit.span span)
  | .function name params body inner span =>
    .function (name.map edit.name) (params.map edit.param) (editedStmts edit body)
      (edit.span inner) (edit.span span)
  | .arrow params result inner span =>
    .arrow (params.map edit.param) (result.edited edit) (edit.span inner) (edit.span span)
  | .arrowBlock params body inner span =>
    if edit.plainFunctions then
      .function none (params.map edit.param) (editedStmts edit body) (edit.span inner)
        (edit.span span)
    else
      .arrowBlock (params.map edit.param) (editedStmts edit body) (edit.span inner)
        (edit.span span)
  | .unary op arg span => .unary op (arg.edited edit) (edit.span span)
  | .binary op left right span =>
    .binary op (left.edited edit) (right.edited edit) (edit.span span)
  | .assign op target value span =>
    .assign op (target.edited edit) (value.edited edit) (edit.span span)
  | .update op before arg span => .update op before (arg.edited edit) (edit.span span)
  | .conditional test consequent alternate span =>
    .conditional (test.edited edit) (consequent.edited edit) (alternate.edited edit)
      (edit.span span)
  | .sequence exprs span => .sequence (editedExprs edit exprs) (edit.span span)
  | .member object name span => .member (object.edited edit) name (edit.span span)
  | .index object property span =>
    .index (object.edited edit) (property.edited edit) (edit.span span)
  | .call callee args span => .call (callee.edited edit) (editedExprs edit args) (edit.span span)
  | .new callee args span => .new (callee.edited edit) (editedExprs edit args) (edit.span span)
  | .unsupported kind span => .unsupported kind (edit.span span)

def editedExprs (edit : Edit) : List Expr → List Expr
  | [] => []
  | expr :: rest => expr.edited edit :: editedExprs edit rest

def editedOptional (edit : Edit) : Option Expr → Option Expr
  | none => none
  | some expr => some (expr.edited edit)

def editedElements (edit : Edit) : List (Option Expr) → List (Option Expr)
  | [] => []
  | element :: rest => editedOptional edit element :: editedElements edit rest

def editedProperties (edit : Edit) : List Property → List Property
  | [] => []
  | property :: rest => property.edited edit :: editedProperties edit rest

def Property.edited (edit : Edit) : Property → Property
  | .named name value shorthand => .named name (value.edited edit) (edit.shorthand shorthand)
  | .computed key value shorthand =>
    .computed (key.edited edit) (value.edited edit) (edit.shorthand shorthand)

def Stmt.edited (edit : Edit) : Stmt → Stmt
  | .var kind decls span => .var kind (editedDecls edit decls) (edit.span span)
  | .function name params body inner span =>
    .function (name.map edit.name) (params.map edit.param) (editedStmts edit body)
      (edit.span inner) (edit.span span)
  | .block body span => .block (editedStmts edit body) (edit.span span)
  | .cond test consequent alternate span =>
    .cond (test.edited edit) (consequent.edited edit) (editedAlternate edit alternate)
      (edit.span span)
  | .loop init test update body span =>
    .loop (init.edited edit) (editedOptional edit test) (editedOptional edit update)
      (body.edited edit) (edit.span span)
  | .whileLoop test body span => .whileLoop (test.edited edit) (body.edited edit) (edit.span span)
  | .doWhile body test span => .doWhile (body.edited edit) (test.edited edit) (edit.span span)
  | .exitLoop span => .exitLoop (edit.span span)
  | .nextLoop span => .nextLoop (edit.span span)
  | .ret arg span => .ret (editedOptional edit arg) (edit.span span)
  | .throw arg span => .throw (arg.edited edit) (edit.span span)
  | .expr expr span => .expr (expr.edited edit) (edit.span span)
  | .empty span => .empty (edit.span span)
  | .unsupported kind span => .unsupported kind (edit.span span)

def editedAlternate (edit : Edit) : Option Stmt → Option Stmt
  | none => none
  | some stmt => some (stmt.edited edit)

def editedStmts (edit : Edit) : List Stmt → List Stmt
  | [] => []
  | stmt :: rest => stmt.edited edit :: editedStmts edit rest

def editedDecls (edit : Edit) : List Declarator → List Declarator
  | [] => []
  | .mk name init span :: rest =>
    .mk (edit.name name) (editedOptional edit init) (edit.span span) ::
      if edit.firstOnly then [] else editedDecls edit rest

def LoopInit.edited (edit : Edit) : LoopInit → LoopInit
  | .absent => .absent
  | .decl kind decls => .decl kind (editedDecls edit decls)
  | .expr expr => .expr (expr.edited edit)

end

def Program.edited (program : Program) (edit : Edit) : Program :=
  ⟨editedStmts edit program.body, edit.span program.span⟩

/-! The same edit of steps, of what is written, and of the writer. -/

def Edit.cause (edit : Edit) (cause : Unsupported) : Unsupported :=
  ⟨cause.kind, edit.span cause.span⟩

def Edit.minted (edit : Edit) (minted : Minted) : Minted := ⟨edit.name minted.base, minted.index⟩

def Edit.piece (edit : Edit) : Piece → Piece
  | .declaration minted => .declaration (edit.minted minted)
  | .reference minted => .reference (edit.minted minted)
  | .free name => .free (edit.name name)
  | piece => piece

namespace Step

mutual

def edited (edit : Edit) : Step → Step
  | text content => text content
  | newline => newline
  | bind name => bind (edit.name name)
  | declare name => declare (edit.name name)
  | refer name => refer (edit.name name)
  | framed body => framed (editedAll edit body)
  | braced body => braced (editedAll edit body)
  | reject cause => reject (edit.cause cause)

def editedAll (edit : Edit) : List Step → List Step
  | [] => []
  | step :: rest => step.edited edit :: editedAll edit rest

end

theorem editedAll_append (edit : Edit) (first second : List Step) :
    editedAll edit (first ++ second) = editedAll edit first ++ editedAll edit second := by
  induction first with
  | nil => rw [editedAll]; rfl
  | cons step rest ih => simp only [List.cons_append, editedAll, ih]

end Step

def Frame.edited (edit : Edit) (frame : Frame) : Frame :=
  { frame with bindings := frame.bindings.map fun (name, minted) =>
      (edit.name name, edit.minted minted) }

def Context.edited (edit : Edit) (context : Context) : Context where
  chain := ⟨context.chain.current.edited edit, context.chain.enclosing.map (Frame.edited edit)⟩
  count := context.count

def Writer.edited (edit : Edit) (writer : Writer) : Writer where
  context := writer.context.edited edit
  level := writer.level
  output := writer.output.map edit.piece

def Written.edited (edit : Edit) : Written → Written
  | .ok _ writer => .ok () (writer.edited edit)
  | .error cause writer => .error (edit.cause cause) (writer.edited edit)

/-! What decides about parentheses, braces and hoisting does not change. -/

section Steps

open Step

variable (edit : Edit)

theorem Expr.shape_edited (expr : Expr) :
    (expr.edited edit).isSelfDelimited = expr.isSelfDelimited ∧
      (expr.edited edit).isIdent = expr.isIdent ∧ (expr.edited edit).isUnary = expr.isUnary := by
  cases expr with
  | arrowBlock params body inner span =>
      rw [Expr.edited]
      split <;> exact ⟨rfl, rfl, rfl⟩
  | _ =>
      rw [Expr.edited]
      exact ⟨rfl, rfl, rfl⟩

theorem Stmt.isBlock_edited (stmt : Stmt) : (stmt.edited edit).isBlock = stmt.isBlock := by
  cases stmt <;> rw [Stmt.edited] <;> rfl

theorem Stmt.hoistedName_edited (stmt : Stmt) :
    (stmt.edited edit).hoistedName = stmt.hoistedName.map edit.name := by
  cases stmt with
  | var kind decls span =>
      rcases decls with _ | ⟨⟨name, init, place⟩, rest⟩ <;>
        simp [Stmt.edited, editedDecls, Stmt.hoistedName, Declarator.name]
  | _ =>
      simp only [Stmt.edited]
      rfl

theorem editedAll_parenthesized (steps : List Step) :
    editedAll edit (parenthesized steps) = parenthesized (editedAll edit steps) := by
  simp [parenthesized, editedAll_append, editedAll, Step.edited]

theorem asOperand_edited (expr : Expr) (steps : List Step) :
    (expr.edited edit).asOperand (editedAll edit steps) =
      editedAll edit (expr.asOperand steps) := by
  rw [Expr.asOperand, Expr.asOperand, (expr.shape_edited edit).1]
  split
  · rfl
  · rw [editedAll_parenthesized]

theorem asConstructor_edited (expr : Expr) (steps : List Step) :
    (expr.edited edit).asConstructor (editedAll edit steps) =
      editedAll edit (expr.asConstructor steps) := by
  rw [Expr.asConstructor, Expr.asConstructor, (expr.shape_edited edit).2.1]
  split
  · rfl
  · rw [editedAll_parenthesized]

theorem asLeft_edited (expr : Expr) (op : BinaryOp) (steps : List Step) :
    (expr.edited edit).asLeft op (editedAll edit steps) =
      editedAll edit (expr.asLeft op steps) := by
  rw [Expr.asLeft, Expr.asLeft, (expr.shape_edited edit).2.2]
  split
  · rw [editedAll_parenthesized]
  · rfl

theorem hoistSteps_edited (body : List Stmt) :
    hoistSteps (editedStmts edit body) = editedAll edit (hoistSteps body) := by
  induction body with
  | nil => rw [editedStmts]; rfl
  | cons stmt rest ih =>
      simp only [hoistSteps] at ih ⊢
      rw [editedStmts, List.filterMap_cons, List.filterMap_cons, stmt.hoistedName_edited]
      cases stmt.hoistedName with
      | none => exact ih
      | some name =>
          simp only [Option.map_some, List.map_cons, editedAll, Step.edited, ih]

theorem paramSteps_edited (params : List Param) :
    paramSteps (params.map edit.param) = editedAll edit (paramSteps params) := by
  induction params with
  | nil => rfl
  | cons first rest ih =>
      cases rest with
      | nil => rfl
      | cons second rest =>
          rw [paramSteps_cons_cons, editedAll_append, ← ih, List.map_cons, List.map_cons,
            paramSteps_cons_cons]
          rfl

theorem functionHead_edited (name : Option String) :
    functionHead (name.map edit.name) = editedAll edit (functionHead name) := by
  cases name <;> rfl

theorem PropertyName.steps_edited (name : PropertyName) :
    editedAll edit name.steps = name.steps := by
  cases name <;> rfl

theorem body_edited {body : List Stmt}
    (lines : lineSteps (editedStmts edit body) = editedAll edit (lineSteps body)) :
    hoistSteps (editedStmts edit body) ++ bodySteps (editedStmts edit body) =
      editedAll edit (hoistSteps body ++ bodySteps body) := by
  rw [editedAll_append, hoistSteps_edited, bodySteps_eq, bodySteps_eq, lines]
  cases body with
  | nil => rw [editedStmts]; rfl
  | cons stmt rest =>
      rw [editedStmts]
      simp [editedAll, Step.edited]

mutual

theorem Expr.steps_edited (expr : Expr) : (expr.edited edit).steps = editedAll edit expr.steps := by
  match expr with
  | .null _ | .bool _ _ | .number _ _ | .string _ _ | .regex _ _ _ | .ident _ _
  | .unsupported _ _ =>
      simp only [Expr.edited, Expr.steps]
      rfl
  | .array elements _ =>
      simp only [Expr.edited, Expr.steps, editedAll_append, elementSteps_edited elements]
      rfl
  | .object properties _ =>
      simp only [Expr.edited, Expr.steps, editedAll_append, propertySteps_edited properties]
      rfl
  | .function name params body _ _ =>
      have inside := body_edited edit (lineSteps_edited body)
      simp only [Expr.edited, Expr.steps, List.append_assoc, editedAll_parenthesized, editedAll,
        Step.edited, inside, functionHead_edited, paramSteps_edited, editedAll_append]
  | .arrow params result _ _ =>
      simp only [Expr.edited, Expr.steps, editedAll_parenthesized, editedAll, Step.edited,
        editedAll_append, paramSteps_edited, result.steps_edited]
      rfl
  | .arrowBlock params body _ _ =>
      have inside := body_edited edit (lineSteps_edited body)
      rw [Expr.edited]
      split <;>
        simp only [Expr.steps, List.append_assoc, editedAll_parenthesized, editedAll, Step.edited,
          inside, paramSteps_edited, editedAll_append] <;> rfl
  | .unary op arg _ =>
      simp only [Expr.edited, Expr.steps, editedAll_append, editedAll_parenthesized,
        arg.steps_edited]
      rfl
  | .binary op left right _ =>
      simp only [Expr.edited, Expr.steps, editedAll_append, editedAll_parenthesized,
        left.steps_edited, right.steps_edited, asLeft_edited]
      rfl
  | .assign op target value _ =>
      simp only [Expr.edited, Expr.steps, editedAll_append, editedAll_parenthesized,
        target.steps_edited, value.steps_edited]
      rfl
  | .update op true arg _ | .update op false arg _ =>
      simp only [Expr.edited, Expr.steps, editedAll_parenthesized, arg.steps_edited,
        Bool.false_eq_true, if_true, if_false, editedAll_append]
      rfl
  | .conditional test consequent alternate _ =>
      simp only [Expr.edited, Expr.steps, editedAll_append, editedAll_parenthesized,
        test.steps_edited, consequent.steps_edited, alternate.steps_edited]
      rfl
  | .sequence exprs _ =>
      simp only [Expr.edited, Expr.steps, editedAll_parenthesized, exprsSteps_edited exprs]
  | .member object name _ =>
      simp only [Expr.edited, Expr.steps, editedAll_append, object.steps_edited, asOperand_edited]
      rfl
  | .index object property _ =>
      simp only [Expr.edited, Expr.steps, editedAll_append, object.steps_edited, asOperand_edited,
        property.steps_edited]
      rfl
  | .call callee args _ =>
      simp only [Expr.edited, Expr.steps, editedAll_append, editedAll_parenthesized,
        callee.steps_edited, asOperand_edited, exprsSteps_edited args]
  | .new callee args _ =>
      simp only [Expr.edited, Expr.steps, editedAll_append, editedAll_parenthesized,
        callee.steps_edited, asConstructor_edited, exprsSteps_edited args]
      rfl

theorem exprsSteps_edited (exprs : List Expr) :
    exprsSteps (editedExprs edit exprs) = editedAll edit (exprsSteps exprs) := by
  match exprs with
  | [] =>
      simp only [editedExprs, exprsSteps]
      rfl
  | [expr] => simp only [editedExprs, exprsSteps, expr.steps_edited]
  | expr :: following :: rest =>
      have others := exprsSteps_edited (following :: rest)
      simp only [editedExprs, exprsSteps_cons_cons, editedAll_append] at others ⊢
      rw [others, expr.steps_edited]
      rfl

theorem optionalSteps_edited (optional : Option Expr) :
    optionalSteps (editedOptional edit optional) = editedAll edit (optionalSteps optional) := by
  match optional with
  | none =>
      simp only [editedOptional, optionalSteps]
      rfl
  | some expr =>
      simp only [editedOptional, optionalSteps, editedAll_append, expr.steps_edited]
      rfl

theorem elementSteps_edited (elements : List (Option Expr)) :
    elementSteps (editedElements edit elements) = editedAll edit (elementSteps elements) := by
  match elements with
  | [] | [none] =>
      simp only [editedElements, editedOptional, elementSteps]
      rfl
  | [some expr] => simp only [editedElements, editedOptional, elementSteps, expr.steps_edited]
  | none :: following :: rest =>
      have others := elementSteps_edited (following :: rest)
      simp only [editedElements, editedOptional, elementSteps_hole_cons, editedAll_append]
        at others ⊢
      rw [others]
      rfl
  | some expr :: following :: rest =>
      have others := elementSteps_edited (following :: rest)
      simp only [editedElements, editedOptional, elementSteps_cons_cons, editedAll_append]
        at others ⊢
      rw [others, expr.steps_edited]
      rfl

theorem propertySteps_edited (properties : List Property) :
    propertySteps (editedProperties edit properties) =
      editedAll edit (propertySteps properties) := by
  match properties with
  | [] =>
      simp only [editedProperties, propertySteps]
      rfl
  | [property] => simp only [editedProperties, propertySteps, property.steps_edited]
  | property :: following :: rest =>
      have others := propertySteps_edited (following :: rest)
      simp only [editedProperties, propertySteps_cons_cons, editedAll_append] at others ⊢
      rw [others, property.steps_edited]
      rfl

theorem Property.steps_edited (property : Property) :
    (property.edited edit).steps = editedAll edit property.steps := by
  match property with
  | .named name value _ =>
      simp only [Property.edited, Property.steps, editedAll_append, value.steps_edited,
        name.steps_edited]
      rfl
  | .computed key value _ =>
      simp only [Property.edited, Property.steps, editedAll_append, key.steps_edited,
        value.steps_edited]
      rfl

theorem Stmt.steps_edited (stmt : Stmt) : (stmt.edited edit).steps = editedAll edit stmt.steps := by
  match stmt with
  | .var kind decls span =>
      simp only [Stmt.edited, Stmt.steps, editedAll_append, declSteps_edited kind span decls]
      rfl
  | .function none params body _ _ | .function (some name) params body _ _ =>
      have inside := body_edited edit (lineSteps_edited body)
      simp only [Stmt.edited, Stmt.steps, List.append_assoc, editedAll_parenthesized, editedAll,
        Step.edited, inside, paramSteps_edited, editedAll_append, Option.map_none,
        Option.map_some]
      rfl
  | .block body _ =>
      simp only [Stmt.edited, Stmt.steps, editedAll, Step.edited,
        body_edited edit (lineSteps_edited body)]
  | .cond test consequent none _ =>
      simp only [Stmt.edited, editedAlternate, Stmt.steps, editedAll_append, test.steps_edited,
        consequent.steps_edited]
      rfl
  | .cond test consequent (some alternate) _ =>
      simp only [Stmt.edited, editedAlternate, Stmt.steps, editedAll_append, test.steps_edited,
        consequent.steps_edited, alternate.steps_edited, consequent.isBlock_edited]
      split
      · rfl
      · simp only [editedAll, Step.edited, editedAll_append]
  | .loop init test update body span =>
      simp only [Stmt.edited, Stmt.steps_loop, editedAll, Step.edited, editedAll_append,
        init.steps_edited, optionalSteps_edited test, optionalSteps_edited update,
        body.steps_edited]
  | .whileLoop test body _ =>
      simp only [Stmt.edited, Stmt.steps, editedAll_append, test.steps_edited, body.steps_edited]
      rfl
  | .doWhile body test _ =>
      simp only [Stmt.edited, Stmt.steps, editedAll_append, test.steps_edited, body.steps_edited]
      rfl
  | .exitLoop _ | .nextLoop _ | .empty _ | .unsupported _ _ =>
      simp only [Stmt.edited, Stmt.steps]
      rfl
  | .ret none _ =>
      simp only [Stmt.edited, editedOptional, Stmt.steps]
      rfl
  | .ret (some arg) _ =>
      simp only [Stmt.edited, editedOptional, Stmt.steps, editedAll_append, arg.steps_edited]
      rfl
  | .throw arg _ =>
      simp only [Stmt.edited, Stmt.steps, editedAll_append, arg.steps_edited]
      rfl
  | .expr arg _ =>
      simp only [Stmt.edited, Stmt.steps, editedAll_append, arg.steps_edited]
      rfl

theorem lineSteps_edited (body : List Stmt) :
    lineSteps (editedStmts edit body) = editedAll edit (lineSteps body) := by
  match body with
  | [] =>
      simp only [editedStmts, lineSteps]
      rfl
  | stmt :: rest =>
      simp only [editedStmts, lineSteps, editedAll_append, stmt.steps_edited, lineSteps_edited rest]
      rfl

/-- Whether later declarators are kept makes no difference to the steps. -/
theorem declSteps_edited (kind : DeclKind) (span : Span) (decls : List Declarator) :
    declSteps kind (edit.span span) (editedDecls edit decls) =
      editedAll edit (declSteps kind span decls) := by
  match decls with
  | [] =>
      simp only [editedDecls, declSteps]
      rfl
  | .mk name none _ :: _ =>
      simp only [editedDecls, editedOptional, declSteps]
      rfl
  | .mk name (some init) _ :: _ =>
      simp only [editedDecls, editedOptional, declSteps, editedAll_append, init.steps_edited]
      rfl

theorem LoopInit.steps_edited (init : LoopInit) (span : Span) :
    (init.edited edit).steps (edit.span span) = editedAll edit (init.steps span) := by
  match init with
  | .absent =>
      simp only [LoopInit.edited, LoopInit.steps]
      rfl
  | .decl kind decls =>
      simp only [LoopInit.edited, LoopInit.steps, declSteps_edited kind span decls]
  | .expr expr => simp only [LoopInit.edited, LoopInit.steps, expr.steps_edited]

end

theorem Program.steps_edited (program : Program) :
    (program.edited edit).steps = editedAll edit program.steps := by
  rw [steps, steps, edited, editedAll_append, hoistSteps_edited]
  congr 1
  induction program.body with
  | nil => rw [editedStmts]; rfl
  | cons stmt rest ih =>
      rw [editedStmts, List.flatMap_cons, List.flatMap_cons, editedAll_append, editedAll_append,
        stmt.steps_edited, ih]
      rfl

end Steps

/-! One step after another, the writer of the edited steps is the edited writer. -/

section Writers

variable (edit : Edit) (writer : Writer)

theorem Frame.get?_edited (frame : Frame) (name : String) :
    (frame.edited edit).get? (edit.name name) = (frame.get? name).map edit.minted := by
  rw [Frame.get?, Frame.get?, Frame.edited]
  induction frame.bindings with
  | nil => rfl
  | cons binding rest ih =>
      have same : (edit.name name == edit.name binding.1) = (name == binding.1) := by
        rw [Bool.eq_iff_iff, beq_iff_eq, beq_iff_eq, edit.injective.eq_iff]
      rw [List.map_cons, List.lookup_cons, List.lookup_cons, ih, same]
      cases name == binding.1 with
      | true => rfl
      | false => rfl

theorem Context.resolve?_edited (context : Context) (name : String) :
    (context.edited edit).resolve? (edit.name name) = (context.resolve? name).map edit.minted := by
  have found (frames : List Frame) :
      (frames.map (Frame.edited edit)).findSome? (·.get? (edit.name name)) =
        (frames.findSome? (·.get? name)).map edit.minted := by
    induction frames with
    | nil => rfl
    | cons frame rest ih =>
        rw [List.map_cons, List.findSome?_cons, List.findSome?_cons, Frame.get?_edited, ih]
        cases frame.get? name with
        | some minted => rfl
        | none => rfl
  exact found context.chain.frames

theorem Context.declare_edited (context : Context) (name : String) :
    (context.edited edit).declare (edit.name name) =
      (edit.minted (context.declare name).1, (context.declare name).2.edited edit) := by
  have found : (context.edited edit).chain.current.get? (edit.name name) =
      (context.chain.current.get? name).map edit.minted := Frame.get?_edited edit _ name
  rw [Context.declare, found, Context.declare]
  cases context.chain.current.get? name with
  | some minted => rfl
  | none =>
      simp [Context.fresh, Chain.bind, Frame.bind, Context.edited, Frame.edited, Edit.minted]

namespace Writer

theorem edited_write (piece : Piece) :
    (writer.write piece).edited edit = (writer.edited edit).write (edit.piece piece) := by
  simp [edited, write]

theorem edited_refer (name : String) :
    (writer.refer name).edited edit = (writer.edited edit).refer (edit.name name) := by
  have found : (writer.edited edit).context.resolve? (edit.name name) =
      (writer.context.resolve? name).map edit.minted := Context.resolve?_edited edit _ name
  rw [refer, refer, found]
  cases writer.context.resolve? name with
  | some minted => exact writer.edited_write edit _
  | none => exact writer.edited_write edit _

theorem edited_enter : writer.enter.edited edit = (writer.edited edit).enter := by
  simp [edited, enter, Context.enter, Context.edited, Chain.push, Chain.frames, Chain.currentIndex,
    Frame.edited]

theorem edited_exit : writer.exit.edited edit = (writer.edited edit).exit := by
  rw [exit, exit, Context.exit?, Context.exit?, Chain.pop?, Chain.pop?]
  cases outside : writer.context.chain.enclosing with
  | nil => simp [edited, Context.edited, outside]
  | cons outer rest => simp [edited, Context.edited, outside]

theorem edited_openBrace : writer.openBrace.edited edit = (writer.edited edit).openBrace := by
  simp [edited, openBrace, write, Edit.piece]

theorem edited_closeBrace : writer.closeBrace.edited edit = (writer.edited edit).closeBrace := by
  simp [edited, closeBrace, newline, write, Edit.piece]

end Writer

end Writers

namespace Step

mutual

theorem run_edited (edit : Edit) (step : Step) (writer : Writer) :
    run (step.edited edit) (writer.edited edit) = Written.edited edit (run step writer) := by
  match step with
  | text content => rw [Step.edited, run, run, Written.edited, Writer.edited_write]; rfl
  | newline =>
      rw [Step.edited, run, run, Written.edited, Writer.newline, Writer.newline,
        Writer.edited_write]
      rfl
  | bind name =>
      rw [Step.edited, run, run, Written.edited, Writer.declare, Writer.declare]
      have declared := Context.declare_edited edit writer.context name
      simp only [Writer.edited, declared]
  | declare name =>
      have declared := Context.declare_edited edit writer.context name
      simp only [Step.edited, run, Written.edited, Writer.declare, Writer.edited_write]
      simp only [Writer.edited, declared, Edit.piece]
  | refer name => rw [Step.edited, run, run, Written.edited, Writer.edited_refer]
  | framed body =>
      rw [Step.edited, run, run, ← Writer.edited_enter, runAll_edited edit body writer.enter]
      cases runAll body writer.enter with
      | ok _ after => exact congrArg _ (after.edited_exit edit).symm
      | error cause after => exact congrArg _ (after.edited_exit edit).symm
  | braced body =>
      rw [Step.edited, run, run, ← Writer.edited_openBrace,
        runAll_edited edit body writer.openBrace]
      cases runAll body writer.openBrace with
      | ok _ after => exact congrArg _ (after.edited_closeBrace edit).symm
      | error cause after => rfl
  | reject cause => rfl

theorem runAll_edited (edit : Edit) (steps : List Step) (writer : Writer) :
    runAll (editedAll edit steps) (writer.edited edit) =
      Written.edited edit (runAll steps writer) := by
  match steps with
  | [] => rfl
  | step :: rest =>
      rw [editedAll, runAll, runAll, run_edited edit step writer]
      cases run step writer with
      | ok _ after => exact runAll_edited edit rest after
      | error cause after => rfl

end

end Step

/-- The edited program is written with the names replaced, or refused for the same node. -/
theorem Program.template_edited (program : Program) (edit : Edit) :
    (program.edited edit).template =
      (program.template.map (List.map edit.piece)).mapError edit.cause := by
  have ran := Step.runAll_edited edit program.steps {}
  have start : ({} : Writer).edited edit = {} := by
    simp [Writer.edited, Context.edited, Frame.edited]
  rw [start] at ran
  rw [template, template, steps_edited, ran]
  cases Step.runAll program.steps {} with
  | ok _ writer => exact congrArg Except.ok (by simp [Writer.edited])
  | error cause writer => rfl

/-! Edits that keep the names. -/

theorem Edit.piece_eq_self {edit : Edit} (kept : edit.name = id) (piece : Piece) :
    edit.piece piece = piece := by
  cases piece <;> simp [Edit.piece, Edit.minted, kept]

theorem Program.template_edited_of_kept (program : Program) {edit : Edit} (kept : edit.name = id) :
    (program.edited edit).template = program.template.mapError edit.cause := by
  have pieces : edit.piece = id := funext (Edit.piece_eq_self kept)
  rw [template_edited, pieces, List.map_id_fun]
  cases program.template <;> rfl

/-- Drops what is never written: declarators after the first, shorthand flags, and the difference
between an arrow with a block and a function without a name. -/
def Edit.reduction : Edit :=
  { shorthand := fun _ => false, firstOnly := true, plainFunctions := true }

/-- Programs are the same but for their spans if they are the same without them. -/
def Edit.spanless : Edit := { span := fun _ => {} }

/-- What is never written has no effect on the text, on the numbers in it, or on the cause of a
refusal; and where a program is written, its spans have none. -/
theorem unwritten_parts_have_no_effect (program : Program) (style : Style) :
    (program.edited .reduction).transform style = program.transform style ∧
      ∀ other : Program, other.edited .spanless = program.edited .spanless →
        ∀ text, program.transform style = .ok text → other.transform style = .ok text := by
  constructor
  · have causes : Edit.reduction.cause = id := rfl
    rw [Program.transform, Program.transform, Program.template_edited_of_kept program rfl, causes]
    cases program.template <;> rfl
  · intro other same text written
    have templates := congrArg Program.template same
    rw [Program.template_edited_of_kept other rfl,
      Program.template_edited_of_kept program rfl] at templates
    rw [Program.transform] at written ⊢
    cases here : program.template with
    | error cause =>
        rw [here] at written
        cases written
    | ok pieces =>
        cases there : other.template with
        | error cause =>
            rw [here, there] at templates
            cases templates
        | ok others =>
            rw [here, there] at templates
            rw [here] at written
            rw [← written, Except.ok.inj templates]

theorem unwritten_parts_have_no_effect_arrow :
    let arrow (span : Span) : Program := ⟨[
      .var .lexical [
        .mk "f" (some (.arrowBlock [⟨"x", span⟩] [
          .ret (some (.object [.named (.ident "x") (.ident "x" span) true] span)) span] span span))
          span,
        .mk "g" (some (.unsupported "ClassExpression" span)) span] span,
      .expr (.call (.ident "f" span) [.ident "g" span] span) span], span⟩
    (arrow {}).edited .spanless = (arrow ⟨1, 2⟩).edited .spanless ∧
      (arrow ⟨1, 2⟩).transform {} =
        .ok "let f$0 = (function(x$1) \x7b\n  return (\x7bx: x$1\x7d);\n\x7d);\nf$0(g);\n" ∧
      ((arrow ⟨1, 2⟩).edited .reduction).transform {} = (arrow ⟨1, 2⟩).transform {} ∧
      (arrow {}).transform {} = (arrow ⟨1, 2⟩).transform {} := by
  intro arrow
  have same : (arrow {}).edited .spanless = (arrow ⟨1, 2⟩).edited .spanless := rfl
  have written : (arrow ⟨1, 2⟩).transform {} =
      .ok "let f$0 = (function(x$1) \x7b\n  return (\x7bx: x$1\x7d);\n\x7d);\nf$0(g);\n" := by
    rfl
  obtain ⟨reduced, respanned⟩ := unwritten_parts_have_no_effect (arrow ⟨1, 2⟩) {}
  exact ⟨same, written, reduced, by rw [respanned _ same _ written, written]⟩

/-- Renaming does not look at what names are called. If all names are replaced one for one, the
same programs are refused for the same cause, and the others are written as before but for the
names: those of declarations and of references to them keep their numbers, free ones are
replaced. -/
theorem transform_equivariant (program : Program) (rename : String → String)
    (injective : Function.Injective rename) (style : Style) :
    let edit : Edit := { name := rename, injective }
    (∀ cause, (program.edited edit).transform style = .error cause ↔
        program.transform style = .error cause) ∧
      ∀ text, program.transform style = .ok text →
        ∃ pieces, program.template = .ok pieces ∧ text = style.render pieces ∧
          (program.edited edit).transform style = .ok (style.render (pieces.map edit.piece)) := by
  intro edit
  have templates := program.template_edited edit
  rw [Program.transform, Program.transform, templates]
  cases program.template with
  | error refused =>
      exact ⟨fun cause => Iff.rfl, fun text written => by cases written⟩
  | ok pieces =>
      constructor
      · intro cause
        constructor <;> intro failed <;> cases failed
      · intro text written
        exact ⟨pieces, rfl, (Except.ok.inj written).symm, rfl⟩

theorem transform_equivariant_shadowed :
    let rename (name : String) : String := "r" ++ name
    let program : Program := ⟨[
      .var .lexical [.mk "x" (some (.ident "y" {})) {}] {},
      .block [.var .lexical [.mk "x" none {}] {}, .expr (.member (.ident "x" {}) "x" {}) {}] {},
      .expr (.ident "x" {}) {}], {}⟩
    ∃ injective : Function.Injective rename,
      let edit : Edit := { name := rename, injective }
      program.transform {} =
          .ok "let x$0 = y;\n\x7b\n  let x$1;\n  x$1.x;\n\x7d\nx$0;\n" ∧
        (program.edited edit).transform {} =
          .ok "let rx$0 = ry;\n\x7b\n  let rx$1;\n  rx$1.x;\n\x7d\nrx$0;\n" ∧
        ∃ pieces, program.template = .ok pieces ∧
          (program.edited edit).transform {} =
            .ok (({} : Style).render (pieces.map edit.piece)) := by
  intro rename program
  have injective : Function.Injective rename := fun first second same => by
    simpa [rename, String.append_right_inj] using same
  have written : program.transform {} =
      .ok "let x$0 = y;\n\x7b\n  let x$1;\n  x$1.x;\n\x7d\nx$0;\n" := rfl
  obtain ⟨_, follows⟩ := transform_equivariant program rename injective {}
  obtain ⟨pieces, template, _, renamed⟩ := follows _ written
  have edited : program.edited { name := rename, injective } = ⟨[
      .var .lexical [.mk "rx" (some (.ident "ry" {})) {}] {},
      .block [.var .lexical [.mk "rx" none {}] {}, .expr (.member (.ident "rx" {}) "x" {}) {}] {},
      .expr (.ident "rx" {}) {}], {}⟩ := by
    have first : "rx" = rename "x" := by decide
    have second : "ry" = rename "y" := by decide
    rw [first, second]
    rfl
  refine ⟨injective, written, ?_, pieces, template, renamed⟩
  rw [edited]
  rfl

end Freshen
