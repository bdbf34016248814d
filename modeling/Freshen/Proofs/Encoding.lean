import Freshen.Proofs.ReadingByRule

/-!
Programs written as ESTree JSON: every node has its type and its fields, and the byte range if the
tree knows it. Optional parts that are absent are null, and so are the holes of arrays. What was
written in this way is read back as the same tree, spans and shorthand flags included.
-/

namespace Freshen

namespace Double

def whole (x : Double) : Int :=
  let size : Int := units x.magnitude / one
  if x.isNegative then -size else size

end Double

/-- A number as JSON: whole if it is a whole number that fits 64 bits, and a double otherwise. -/
def Json.ofDouble (x : Double) : Json :=
  if Double.ofInt x.whole = x ∧ -0x8000000000000000 ≤ x.whole ∧ x.whole < 0x10000000000000000 then
    .whole x.whole
  else .double x

namespace Estree

def bareNode (kind : String) (fields : List (String × Json)) : Json :=
  .object (("type", .string kind) :: fields)

def spannedNode (kind : String) (span : Span) (fields : List (String × Json)) : Json :=
  bareNode kind
    (("start", .whole span.start.toNat) :: ("end", .whole span.stop.toNat) :: fields)

def encodeIdentifier (name : String) : Json := bareNode "Identifier" [("name", .string name)]

def encodeParam (param : Param) : Json :=
  spannedNode "Identifier" param.span [("name", .string param.name)]

def encodeId : Option String → Json
  | none => .null
  | some name => encodeIdentifier name

def encodePropertyName : PropertyName → Json
  | .ident name => encodeIdentifier name
  | .string value => bareNode "Literal" [("value", .string value)]
  | .number value => bareNode "Literal" [("value", .ofDouble value)]

def operationKind (op : BinaryOp) : String :=
  if op.isLogical then "LogicalExpression" else "BinaryExpression"

mutual

def encodeExpr : Expr → Json
  | .null span => spannedNode "Literal" span [("value", .null)]
  | .bool value span => spannedNode "Literal" span [("value", .bool value)]
  | .number value span => spannedNode "Literal" span [("value", .ofDouble value)]
  | .string value span => spannedNode "Literal" span [("value", .string value)]
  | .regex pattern flags span =>
    spannedNode "Literal" span [("value", .null),
      ("regex", .object [("pattern", .string pattern), ("flags", .string flags)])]
  | .ident name span => spannedNode "Identifier" span [("name", .string name)]
  | .array elements span =>
    spannedNode "ArrayExpression" span [("elements", .array (encodeElements elements))]
  | .object properties span =>
    spannedNode "ObjectExpression" span [("properties", .array (encodeProperties properties))]
  | .function name params body _ span =>
    spannedNode "FunctionExpression" span [("id", encodeId name),
      ("params", .array (params.map encodeParam)),
      ("body", bareNode "BlockStatement" [("body", .array (encodeStmts body))]),
      ("generator", .bool false), ("async", .bool false)]
  | .arrow params result _ span =>
    spannedNode "ArrowFunctionExpression" span [("id", .null),
      ("params", .array (params.map encodeParam)), ("body", encodeExpr result),
      ("expression", .bool true), ("generator", .bool false), ("async", .bool false)]
  | .arrowBlock params body _ span =>
    spannedNode "ArrowFunctionExpression" span [("id", .null),
      ("params", .array (params.map encodeParam)),
      ("body", bareNode "BlockStatement" [("body", .array (encodeStmts body))]),
      ("expression", .bool false), ("generator", .bool false), ("async", .bool false)]
  | .unary op arg span =>
    spannedNode "UnaryExpression" span [("operator", .string op.token), ("prefix", .bool true),
      ("argument", encodeExpr arg)]
  | .binary op left right span =>
    spannedNode (operationKind op) span [("operator", .string op.token),
      ("left", encodeExpr left), ("right", encodeExpr right)]
  | .assign op target value span =>
    spannedNode "AssignmentExpression" span [("operator", .string op.token),
      ("left", encodeExpr target), ("right", encodeExpr value)]
  | .update op before arg span =>
    spannedNode "UpdateExpression" span [("operator", .string op.token), ("prefix", .bool before),
      ("argument", encodeExpr arg)]
  | .conditional test consequent alternate span =>
    spannedNode "ConditionalExpression" span [("test", encodeExpr test),
      ("consequent", encodeExpr consequent), ("alternate", encodeExpr alternate)]
  | .sequence exprs span =>
    spannedNode "SequenceExpression" span [("expressions", .array (encodeExprs exprs))]
  | .member object name span =>
    spannedNode "MemberExpression" span [("object", encodeExpr object),
      ("property", encodeIdentifier name), ("computed", .bool false), ("optional", .bool false)]
  | .index object property span =>
    spannedNode "MemberExpression" span [("object", encodeExpr object),
      ("property", encodeExpr property), ("computed", .bool true), ("optional", .bool false)]
  | .call callee args span =>
    spannedNode "CallExpression" span [("callee", encodeExpr callee),
      ("arguments", .array (encodeExprs args)), ("optional", .bool false)]
  | .new callee args span =>
    spannedNode "NewExpression" span [("callee", encodeExpr callee),
      ("arguments", .array (encodeExprs args))]
  | .unsupported kind span => spannedNode kind span []

def encodeExprs : List Expr → List Json
  | [] => []
  | expr :: rest => encodeExpr expr :: encodeExprs rest

def encodeOptional : Option Expr → Json
  | none => .null
  | some expr => encodeExpr expr

def encodeElements : List (Option Expr) → List Json
  | [] => []
  | element :: rest => encodeOptional element :: encodeElements rest

def encodeProperties : List Property → List Json
  | [] => []
  | property :: rest => encodeProperty property :: encodeProperties rest

def encodeProperty : Property → Json
  | .named name value shorthand =>
    bareNode "Property" [("key", encodePropertyName name), ("value", encodeExpr value),
      ("kind", .string "init"), ("computed", .bool false), ("method", .bool false),
      ("shorthand", .bool shorthand)]
  | .computed key value shorthand =>
    bareNode "Property" [("key", encodeExpr key), ("value", encodeExpr value),
      ("kind", .string "init"), ("computed", .bool true), ("method", .bool false),
      ("shorthand", .bool shorthand)]

def encodeStmt : Stmt → Json
  | .var kind decls span =>
    spannedNode "VariableDeclaration" span [("declarations", .array (encodeDecls decls)),
      ("kind", .string kind.word)]
  | .function name params body _ span =>
    spannedNode "FunctionDeclaration" span [("id", encodeId name),
      ("params", .array (params.map encodeParam)),
      ("body", bareNode "BlockStatement" [("body", .array (encodeStmts body))]),
      ("generator", .bool false), ("async", .bool false)]
  | .block body span => spannedNode "BlockStatement" span [("body", .array (encodeStmts body))]
  | .cond test consequent alternate span =>
    spannedNode "IfStatement" span [("test", encodeExpr test),
      ("consequent", encodeStmt consequent), ("alternate", encodeAlternate alternate)]
  | .loop init test update body span =>
    spannedNode "ForStatement" span [("init", encodeLoopInit init), ("test", encodeOptional test),
      ("update", encodeOptional update), ("body", encodeStmt body)]
  | .whileLoop test body span =>
    spannedNode "WhileStatement" span [("test", encodeExpr test), ("body", encodeStmt body)]
  | .doWhile body test span =>
    spannedNode "DoWhileStatement" span [("body", encodeStmt body), ("test", encodeExpr test)]
  | .exitLoop span => spannedNode "BreakStatement" span [("label", .null)]
  | .nextLoop span => spannedNode "ContinueStatement" span [("label", .null)]
  | .ret arg span => spannedNode "ReturnStatement" span [("argument", encodeOptional arg)]
  | .throw arg span => spannedNode "ThrowStatement" span [("argument", encodeExpr arg)]
  | .expr expr span => spannedNode "ExpressionStatement" span [("expression", encodeExpr expr)]
  | .empty span => spannedNode "EmptyStatement" span []
  | .unsupported kind span => spannedNode kind span []

def encodeAlternate : Option Stmt → Json
  | none => .null
  | some stmt => encodeStmt stmt

def encodeStmts : List Stmt → List Json
  | [] => []
  | stmt :: rest => encodeStmt stmt :: encodeStmts rest

def encodeDecls : List Declarator → List Json
  | [] => []
  | .mk name init span :: rest =>
    spannedNode "VariableDeclarator" span
      [("id", encodeIdentifier name), ("init", encodeOptional init)] :: encodeDecls rest

def encodeLoopInit : LoopInit → Json
  | .absent => .null
  | .decl kind decls =>
    bareNode "VariableDeclaration" [("declarations", .array (encodeDecls decls)),
      ("kind", .string kind.word)]
  | .expr expr => encodeExpr expr

end

def encode (program : Program) : Json :=
  spannedNode "Program" program.span
    [("sourceType", .string "script"), ("body", .array (encodeStmts program.body))]

end Estree

def Expr.isTarget : Expr → Bool
  | ident .. | member .. | index .. => true
  | _ => false

def Expr.isUnsupportedKind (kind : String) : Expr → Bool
  | unsupported other _ => other == kind
  | _ => false

def PropertyName.isEncodable : PropertyName → Bool
  | number value => value.isFinite
  | _ => true

open Estree in
mutual

/-- Expressions that can be told from their JSON: numbers are finite, values are assigned to names
and properties, declaration groups are not empty, a function has the span of its node, and what is
not supported has a type that has no meaning where it stands. -/
def Expr.isEncodable : Expr → Bool
  | .number value _ => value.isFinite
  | .array elements _ => elementsAreEncodable elements
  | .object properties _ => propertiesAreEncodable properties
  | .function _ _ body inner span | .arrowBlock _ body inner span =>
    inner == span && stmtsAreEncodable body
  | .arrow _ result inner span =>
    inner == span && result.isEncodable && !result.isUnsupportedKind "BlockStatement"
  | .unary _ arg _ | .update _ _ arg _ | .member arg _ _ => arg.isEncodable
  | .binary _ left right _ | .index left right _ => left.isEncodable && right.isEncodable
  | .assign _ target value _ => target.isTarget && target.isEncodable && value.isEncodable
  | .conditional test consequent alternate _ =>
    test.isEncodable && consequent.isEncodable && alternate.isEncodable
  | .sequence exprs _ => exprsAreEncodable exprs
  | .call callee args _ | .new callee args _ => callee.isEncodable && exprsAreEncodable args
  | .unsupported kind _ => !exprKinds.contains kind
  | _ => true

def exprsAreEncodable : List Expr → Bool
  | [] => true
  | expr :: rest => expr.isEncodable && exprsAreEncodable rest

def optionalIsEncodable : Option Expr → Bool
  | none => true
  | some expr => expr.isEncodable

def elementsAreEncodable : List (Option Expr) → Bool
  | [] => true
  | element :: rest => optionalIsEncodable element && elementsAreEncodable rest

def propertiesAreEncodable : List Property → Bool
  | [] => true
  | property :: rest => property.isEncodable && propertiesAreEncodable rest

def Property.isEncodable : Property → Bool
  | .named name value _ => name.isEncodable && value.isEncodable
  | .computed key value _ => key.isEncodable && value.isEncodable

def Stmt.isEncodable : Stmt → Bool
  | .var _ decls _ => !decls.isEmpty && declsAreEncodable decls
  | .function _ _ body inner span => inner == span && stmtsAreEncodable body
  | .block body _ => stmtsAreEncodable body
  | .cond test consequent alternate _ =>
    test.isEncodable && consequent.isEncodable && alternateIsEncodable alternate
  | .loop init test update body _ =>
    init.isEncodable && optionalIsEncodable test && optionalIsEncodable update && body.isEncodable
  | .whileLoop test body _ | .doWhile body test _ => test.isEncodable && body.isEncodable
  | .ret arg _ => optionalIsEncodable arg
  | .throw arg _ | .expr arg _ => arg.isEncodable
  | .unsupported kind _ => !stmtKinds.contains kind
  | _ => true

def alternateIsEncodable : Option Stmt → Bool
  | none => true
  | some stmt => stmt.isEncodable

def stmtsAreEncodable : List Stmt → Bool
  | [] => true
  | stmt :: rest => stmt.isEncodable && stmtsAreEncodable rest

def declsAreEncodable : List Declarator → Bool
  | [] => true
  | .mk _ init _ :: rest => optionalIsEncodable init && declsAreEncodable rest

def LoopInit.isEncodable : LoopInit → Bool
  | .absent => true
  | .decl _ decls => !decls.isEmpty && declsAreEncodable decls
  | .expr expr => expr.isEncodable && !expr.isUnsupportedKind "VariableDeclaration"

end

def Program.isEncodable (program : Program) : Bool := stmtsAreEncodable program.body

end Freshen
