import Freshen.Code.Literal
import Freshen.Code.Step
import Freshen.Number.Numeral

/-!
Programs as steps of writing. Operations are written in parentheses, so that the text needs no
precedence; declarations of a list of statements are bound before any of its statements is written.
To rename a program is to run its steps: every binding gets a name of its own on the way.
-/

namespace Freshen

def parenthesized (steps : List Step) : List Step :=
  [.text "("] ++ steps ++ [.text ")"]

def hoistSteps (body : List Stmt) : List Step :=
  (body.filterMap Stmt.hoistedName).map .bind

def paramSteps : List Param → List Step
  | [] => []
  | [param] => [.declare param.name]
  | param :: rest => [.declare param.name, .text ", "] ++ paramSteps rest

def functionHead (name : Option String) : List Step :=
  match name with
  | some name => [.text "function ", .declare name]
  | none => [.text "function"]

def PropertyName.steps : PropertyName → List Step
  | ident name => [.text name]
  | string value => [.text (stringLiteral value)]
  | number value => [.text (String.ofList value.numeral)]

namespace Expr

def isIdent : Expr → Bool
  | ident .. => true
  | _ => false

def isUnary : Expr → Bool
  | unary .. => true
  | _ => false

/-- Expressions whose text can be called, or have a property read, without parentheses. -/
def isSelfDelimited : Expr → Bool
  | number .. | unary .. | new .. | unsupported .. => false
  | _ => true

def asOperand (expr : Expr) (steps : List Step) : List Step :=
  if expr.isSelfDelimited then steps else parenthesized steps

/-- The steps of an expression after `new`, where only a name goes without parentheses. -/
def asConstructor (expr : Expr) (steps : List Step) : List Step :=
  if expr.isIdent then steps else parenthesized steps

/-- The steps of a left operand. Before `**` a unary operator has to be in parentheses. -/
def asLeft (expr : Expr) (op : BinaryOp) (steps : List Step) : List Step :=
  if op = .power ∧ expr.isUnary then parenthesized steps else steps

end Expr

mutual

def Expr.steps : Expr → List Step
  | .null _ => [.text "null"]
  | .bool value _ => [.text (if value then "true" else "false")]
  | .number value _ => [.text (String.ofList value.numeral)]
  | .string value _ => [.text (stringLiteral value)]
  | .regex pattern flags _ => [.text ("/" ++ pattern ++ "/" ++ flags)]
  | .ident name _ => [.refer name]
  | .array elements _ => [.text "["] ++ elementSteps elements ++ [.text "]"]
  | .object properties _ => [.text "(\x7b"] ++ propertySteps properties ++ [.text "\x7d)"]
  | .function name params body _ _ =>
    parenthesized [.framed (functionHead name ++ parenthesized (paramSteps params) ++
      [.text " "] ++ hoistSteps body ++ bodySteps body)]
  | .arrow params result _ _ =>
    parenthesized [.framed (functionHead none ++ parenthesized (paramSteps params) ++
      [.text " \x7b return "] ++ result.steps ++ [.text "; \x7d"])]
  | .arrowBlock params body _ _ =>
    parenthesized [.framed (functionHead none ++ parenthesized (paramSteps params) ++
      [.text " "] ++ hoistSteps body ++ bodySteps body)]
  | .unary op arg _ => [.text op.token] ++ parenthesized arg.steps
  | .binary op left right _ =>
    parenthesized (left.asLeft op left.steps ++ [.text (" " ++ op.token ++ " ")] ++ right.steps)
  | .assign op target value _ =>
    parenthesized (target.steps ++ [.text (" " ++ op.token ++ " ")] ++ value.steps)
  | .update op before arg _ =>
    parenthesized (if before then [.text op.token] ++ arg.steps else arg.steps ++ [.text op.token])
  | .conditional test consequent alternate _ =>
    parenthesized (test.steps ++ [.text " ? "] ++ consequent.steps ++ [.text " : "] ++
      alternate.steps)
  | .sequence exprs _ => parenthesized (exprsSteps exprs)
  | .member object name _ => object.asOperand object.steps ++ [.text ("." ++ name)]
  | .index object property _ =>
    object.asOperand object.steps ++ [.text "["] ++ property.steps ++ [.text "]"]
  | .call callee args _ => callee.asOperand callee.steps ++ parenthesized (exprsSteps args)
  | .new callee args _ =>
    [.text "new "] ++ callee.asConstructor callee.steps ++ parenthesized (exprsSteps args)
  | .unsupported kind span => [.reject ⟨kind, span⟩]

def exprsSteps : List Expr → List Step
  | [] => []
  | [expr] => expr.steps
  | expr :: rest => expr.steps ++ [.text ", "] ++ exprsSteps rest

/-- The inside of an array literal. A hole at the end needs a comma of its own. -/
def elementSteps : List (Option Expr) → List Step
  | [] => []
  | [none] => [.text ","]
  | [some expr] => expr.steps
  | none :: rest => [.text ", "] ++ elementSteps rest
  | some expr :: rest => expr.steps ++ [.text ", "] ++ elementSteps rest

def propertySteps : List Property → List Step
  | [] => []
  | [property] => property.steps
  | property :: rest => property.steps ++ [.text ", "] ++ propertySteps rest

def Property.steps : Property → List Step
  | .named name value _ => name.steps ++ [.text ": "] ++ value.steps
  | .computed key value _ => [.text "["] ++ key.steps ++ [.text "]: "] ++ value.steps

def Stmt.steps : Stmt → List Step
  | .var kind decls span => declSteps kind span decls ++ [.text ";"]
  | .function name params body _ _ =>
    let rest := parenthesized (paramSteps params) ++ [.text " "] ++ hoistSteps body ++
      bodySteps body
    match name with
    | some _ => functionHead name ++ [.framed rest]
    | none => parenthesized [.framed (functionHead none ++ rest)] ++ [.text ";"]
  | .block body _ => [.framed (hoistSteps body ++ bodySteps body)]
  | .cond test consequent alternate _ =>
    [.text "if ("] ++ test.steps ++ [.text ") "] ++
      match alternate with
      | none => consequent.steps
      | some alternate =>
        (if consequent.isBlock then consequent.steps
          else [.braced ([.newline] ++ consequent.steps)]) ++
          [.text " else "] ++ alternate.steps
  | .loop init test update body span =>
    [.framed ([.text "for ("] ++ init.steps span ++ [.text ";"] ++
      (match test with
        | none => []
        | some test => [.text " "] ++ test.steps) ++ [.text ";"] ++
      (match update with
        | none => []
        | some update => [.text " "] ++ update.steps) ++ [.text ") "] ++ body.steps)]
  | .whileLoop test body _ => [.text "while ("] ++ test.steps ++ [.text ") "] ++ body.steps
  | .doWhile body test _ =>
    [.text "do "] ++ body.steps ++ [.text " while ("] ++ test.steps ++ [.text ");"]
  | .exitLoop _ => [.text "break;"]
  | .nextLoop _ => [.text "continue;"]
  | .ret none _ => [.text "return;"]
  | .ret (some arg) _ => [.text "return "] ++ arg.steps ++ [.text ";"]
  | .throw arg _ => [.text "throw "] ++ arg.steps ++ [.text ";"]
  | .expr expr _ => expr.steps ++ [.text ";"]
  | .empty _ => [.text ";"]
  | .unsupported kind span => [.reject ⟨kind, span⟩]

def lineSteps : List Stmt → List Step
  | [] => []
  | stmt :: rest => [.newline] ++ stmt.steps ++ lineSteps rest

def bodySteps : List Stmt → List Step
  | [] => [.text "\x7b\x7d"]
  | stmt :: rest => [.braced ([.newline] ++ stmt.steps ++ lineSteps rest)]

/-- A declaration group without its semicolon. Only the first declarator is written. -/
def declSteps (kind : DeclKind) (span : Span) : List Declarator → List Step
  | [] => [.reject ⟨"VariableDeclaration (empty)", span⟩]
  | .mk name none _ :: _ => [.text (kind.word ++ " "), .declare name]
  | .mk name (some init) _ :: _ =>
    [.text (kind.word ++ " "), .declare name, .text " = "] ++ init.steps

def LoopInit.steps (span : Span) : LoopInit → List Step
  | .absent => []
  | .decl kind decls => declSteps kind span decls
  | .expr expr => expr.steps

end

namespace Program

def steps (program : Program) : List Step :=
  hoistSteps program.body ++ program.body.flatMap fun stmt => stmt.steps ++ [.newline]

/-- The renamed program with the choices of style still open. -/
def template (program : Program) : Except Unsupported (List Piece) :=
  match Step.runAll program.steps {} with
  | .ok _ writer => .ok writer.output.toList
  | .error cause _ => .error cause

def transform (program : Program) (style : Style) : Except Unsupported String :=
  program.template.map style.render

end Program

end Freshen
