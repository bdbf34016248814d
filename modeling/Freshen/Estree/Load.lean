import Freshen.Estree.Node
import Freshen.Json.Reader

/-!
Reading programs from ESTree JSON. Fields are read in a fixed order, depth first, and the first
fault ends the reading. A node whose type has no counterpart is kept as `unsupported`.
-/

namespace Freshen.Estree

section

variable {json : Json}

/-- The name that a pattern binds; only plain identifiers bind one. -/
def bindingName (node : Node json) : Load String :=
  if node.kind = "Identifier" then node.string "name"
  else throw (.unsupportedPattern node.kind node.span)

def param (json : Json) : Load Param := do
  let node ← Node.of json
  return ⟨← bindingName node, node.span⟩

def params (node : Node json) : Load (List Param) := do
  (← node.items "params").mapM fun part => param part.val

def functionFlavor (node : Node json) : Option String :=
  if node.kind ∈ ["FunctionDeclaration", "FunctionExpression", "ArrowFunctionExpression"] then
    if node.flag "async" then some "AsyncFunction"
    else if node.flag "generator" then some "GeneratorFunction"
    else none
  else none

def regexPart (node : Node json) (regex : Json) (name : String) : Load String :=
  match (regex.get? name).bind Json.string? with
  | some value => .ok value
  | none => .error (node.invalid "regex" "an object with `pattern` and `flags`")

def finiteNumber (node : Node json) (value : Double) : Load Double :=
  if value.isFinite then .ok value else .error (node.invalid "value" "a finite number")

def literal (node : Node json) : Load Expr := do
  match node.field? "regex" with
  | some regex =>
    return .regex (← regexPart node regex.val "pattern") (← regexPart node regex.val "flags")
      node.span
  | none =>
    if (node.field? "bigint").isSome then return .unsupported "BigIntLiteral" node.span
    match json.get? "value" with
    | none | some .null => return .null node.span
    | some (.bool value) => return .bool value node.span
    | some (.whole value) => return .number (← finiteNumber node (.ofInt value)) node.span
    | some (.double value) => return .number (← finiteNumber node value) node.span
    | some (.string value) => return .string value node.span
    | some _ => throw (node.invalid "value" "a literal value")

/-- The written name of a property, or the type of a key that has none. -/
def propertyName (json : Json) : ExceptT String Load PropertyName := do
  let node ← Node.of json
  match node.kind with
  | "Identifier" => return .ident (← node.string "name")
  | "Literal" =>
    match ← literal node with
    | .string value _ => return .string value
    | .number value _ => return .number value
    | _ => throwThe LoadError (node.invalid "value" "a string or number key")
  | other => throwThe String other

def operator {α : Type} (node : Node json) (ofToken? : String → Option α) (expected : String) :
    Load α := do
  match ofToken? (← node.string "operator") with
  | some op => return op
  | none => throw (node.invalid "operator" expected)

end

mutual

def expr (json : Json) : Load Expr := do
  let node ← Node.of json
  if let some flavor := functionFlavor node then
    return .unsupported flavor node.span
  match node.kind with
  | "Identifier" => return .ident (← node.string "name") node.span
  | "Literal" => literal node
  | "ArrayExpression" =>
    let elements ← (← node.items "elements").mapM fun part =>
      if part.val.isNull then pure none else some <$> expr part.val
    return .array elements node.span
  | "ObjectExpression" =>
    match ← ((← node.items "properties").mapM fun part => property part.val).run with
    | .ok properties => return .object properties node.span
    | .error kind => return .unsupported kind node.span
  | "FunctionExpression" =>
    let (name, params, body) ← function node
    return .function name params body node.span node.span
  | "ArrowFunctionExpression" =>
    let part ← node.field "body"
    let bodyNode ← Node.of part.val
    if bodyNode.kind = "BlockStatement" then
      let body ← (← bodyNode.items "body").mapM fun inner => stmt inner.val
      return .arrowBlock (← params node) body node.span node.span
    else
      let result ← expr part.val
      return .arrow (← params node) result node.span node.span
  | "UnaryExpression" =>
    let op ← operator node UnaryOp.ofToken? "a unary operator"
    let arg ← node.field "argument"
    return .unary op (← expr arg.val) node.span
  | "BinaryExpression" | "LogicalExpression" =>
    let op ← operator node BinaryOp.ofToken? "a binary operator"
    let left ← node.field "left"
    let leftExpr ← expr left.val
    let right ← node.field "right"
    return .binary op leftExpr (← expr right.val) node.span
  | "AssignmentExpression" =>
    let op ← operator node AssignOp.ofToken? "an assignment operator"
    let left ← node.field "left"
    let target ← Node.of left.val
    if target.kind ∉ ["Identifier", "MemberExpression"] then
      throw (.unsupportedPattern target.kind target.span)
    let targetExpr ← expr left.val
    let right ← node.field "right"
    return .assign op targetExpr (← expr right.val) node.span
  | "UpdateExpression" =>
    let op ← operator node UpdateOp.ofToken? "\"++\" or \"--\""
    let arg ← node.field "argument"
    return .update op (node.flag "prefix") (← expr arg.val) node.span
  | "ConditionalExpression" =>
    let test ← node.field "test"
    let testExpr ← expr test.val
    let consequent ← node.field "consequent"
    let consequentExpr ← expr consequent.val
    let alternate ← node.field "alternate"
    return .conditional testExpr consequentExpr (← expr alternate.val) node.span
  | "SequenceExpression" =>
    let exprs ← (← node.items "expressions").mapM fun part => expr part.val
    return .sequence exprs node.span
  | "MemberExpression" =>
    let part ← node.field "property"
    if node.flag "computed" then
      let property ← expr part.val
      let object ← node.field "object"
      return .index (← expr object.val) property node.span
    else
      let property ← Node.of part.val
      if property.kind = "Identifier" then
        let name ← property.string "name"
        let object ← node.field "object"
        return .member (← expr object.val) name node.span
      else
        return .unsupported property.kind property.span
  | "CallExpression" =>
    if node.flag "optional" then
      return .unsupported node.kind node.span
    let callee ← node.field "callee"
    let calleeExpr ← expr callee.val
    let args ← (← node.items "arguments").mapM fun part => expr part.val
    return .call calleeExpr args node.span
  | "NewExpression" =>
    let callee ← node.field "callee"
    let calleeExpr ← expr callee.val
    let args ← (← node.items "arguments").mapM fun part => expr part.val
    return .new calleeExpr args node.span
  | other => return .unsupported other node.span
termination_by 2 * json.height + 1

def property (json : Json) : ExceptT String Load Property := do
  let node ← Node.of json
  if node.kind ≠ "Property" then
    throwThe String node.kind
  if (← node.string "kind") ≠ "init" || node.flag "method" then
    throwThe String "MethodDefinition"
  let key ← node.field "key"
  if node.flag "computed" then
    let keyExpr ← (expr key.val : Load Expr)
    let value ← node.field "value"
    return .computed keyExpr (← (expr value.val : Load Expr)) (node.flag "shorthand")
  else
    let name ← propertyName key.val
    let value ← node.field "value"
    return .named name (← (expr value.val : Load Expr)) (node.flag "shorthand")
termination_by 2 * json.height + 1

def function {json : Json} (node : Node json) : Load (Option String × List Param × List Stmt) := do
  let name ← (node.field? "id").mapM fun part => do bindingName (← Node.of part.val)
  let params ← params node
  let part ← node.field "body"
  let bodyNode ← Node.of part.val
  let body ← (← bodyNode.items "body").mapM fun inner => stmt inner.val
  return (name, params, body)
termination_by 2 * json.height

def declarations {json : Json} (node : Node json) : Load (DeclKind × List Declarator) := do
  let some kind := DeclKind.ofWord? (← node.string "kind")
    | throw (node.invalid "kind" "\"var\", \"let\" or \"const\"")
  let decls ← (← node.items "declarations").mapM fun part => declarator part.val
  if decls.isEmpty then
    throw (node.invalid "declarations" "at least one declarator")
  return (kind, decls)
termination_by 2 * json.height

def declarator (json : Json) : Load Declarator := do
  let node ← Node.of json
  let name ← bindingName (← Node.of (← node.field "id").val)
  let init ← (node.field? "init").mapM fun part => expr part.val
  return .mk name init node.span
termination_by 2 * json.height

def loopInit (json : Json) : Load LoopInit := do
  let node ← Node.of json
  if node.kind = "VariableDeclaration" then
    let (kind, decls) ← declarations node
    return .decl kind decls
  else
    return .expr (← expr json)
termination_by 2 * json.height + 2

def stmt (json : Json) : Load Stmt := do
  let node ← Node.of json
  match node.kind with
  | "VariableDeclaration" =>
    let (kind, decls) ← declarations node
    return .var kind decls node.span
  | "FunctionDeclaration" =>
    if let some flavor := functionFlavor node then
      return .unsupported flavor node.span
    let (name, params, body) ← function node
    return .function name params body node.span node.span
  | "BlockStatement" =>
    let body ← (← node.items "body").mapM fun part => stmt part.val
    return .block body node.span
  | "IfStatement" =>
    let test ← node.field "test"
    let testExpr ← expr test.val
    let consequent ← node.field "consequent"
    let consequentStmt ← stmt consequent.val
    let alternate ← (node.field? "alternate").mapM fun part => stmt part.val
    return .cond testExpr consequentStmt alternate node.span
  | "ForStatement" =>
    let init ← (node.field? "init").mapM fun part => loopInit part.val
    let test ← (node.field? "test").mapM fun part => expr part.val
    let update ← (node.field? "update").mapM fun part => expr part.val
    let body ← node.field "body"
    return .loop (init.getD .absent) test update (← stmt body.val) node.span
  | "WhileStatement" =>
    let test ← node.field "test"
    let testExpr ← expr test.val
    let body ← node.field "body"
    return .whileLoop testExpr (← stmt body.val) node.span
  | "DoWhileStatement" =>
    let body ← node.field "body"
    let bodyStmt ← stmt body.val
    let test ← node.field "test"
    return .doWhile bodyStmt (← expr test.val) node.span
  | "BreakStatement" =>
    if (node.field? "label").isSome then return .unsupported node.kind node.span
    return .exitLoop node.span
  | "ContinueStatement" =>
    if (node.field? "label").isSome then return .unsupported node.kind node.span
    return .nextLoop node.span
  | "ReturnStatement" =>
    let arg ← (node.field? "argument").mapM fun part => expr part.val
    return .ret arg node.span
  | "ThrowStatement" =>
    let arg ← node.field "argument"
    return .throw (← expr arg.val) node.span
  | "ExpressionStatement" =>
    let part ← node.field "expression"
    return .expr (← expr part.val) node.span
  | "EmptyStatement" => return .empty node.span
  | other => return .unsupported other node.span
termination_by 2 * json.height + 1

end

def program (json : Json) : Load Program := do
  let node ← Node.of json
  if node.kind ≠ "Program" then
    throw (node.invalid "type" "\"Program\"")
  let body ← (← node.items "body").mapM fun part => stmt part.val
  return ⟨body, node.span⟩

inductive TextError where
  | notJson
  | invalid (cause : LoadError)
deriving DecidableEq, Repr

def TextError.message : TextError → String
  | notJson => "Invalid ESTree JSON"
  | invalid cause => cause.message

def programOfText (text : String) : Except TextError Program :=
  match Json.parse? text with
  | some json => (program json).mapError .invalid
  | none => .error .notJson

end Freshen.Estree
