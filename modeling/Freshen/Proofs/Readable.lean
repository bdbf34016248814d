import Freshen.Code.Draft
import Freshen.Proofs.CodeReader

/-!
Programs whose written code can be read in one way only, and what of a program its code shows:
everything but the spans and the shorthand flags.
-/

namespace Freshen

mutual

@[simp] def Expr.erased : Expr → Expr
  | .null _ => .null {}
  | .bool value _ => .bool value {}
  | .number value _ => .number value {}
  | .string value _ => .string value {}
  | .regex pattern flags _ => .regex pattern flags {}
  | .ident name _ => .ident name {}
  | .array elements _ => .array (erasedElements elements) {}
  | .object properties _ => .object (erasedProperties properties) {}
  | .function name params body _ _ =>
    .function name (params.map (⟨·.name, {}⟩)) (erasedStmts body) {} {}
  | .arrow params result _ _ => .arrow (params.map (⟨·.name, {}⟩)) result.erased {} {}
  | .arrowBlock params body _ _ =>
    .arrowBlock (params.map (⟨·.name, {}⟩)) (erasedStmts body) {} {}
  | .unary op arg _ => .unary op arg.erased {}
  | .binary op left right _ => .binary op left.erased right.erased {}
  | .assign op target value _ => .assign op target.erased value.erased {}
  | .update op before arg _ => .update op before arg.erased {}
  | .conditional test consequent alternate _ =>
    .conditional test.erased consequent.erased alternate.erased {}
  | .sequence exprs _ => .sequence (erasedExprs exprs) {}
  | .member object name _ => .member object.erased name {}
  | .index object property _ => .index object.erased property.erased {}
  | .call callee args _ => .call callee.erased (erasedExprs args) {}
  | .new callee args _ => .new callee.erased (erasedExprs args) {}
  | .unsupported kind _ => .unsupported kind {}

@[simp] def erasedExprs : List Expr → List Expr
  | [] => []
  | expr :: rest => expr.erased :: erasedExprs rest

@[simp] def erasedOptional : Option Expr → Option Expr
  | none => none
  | some expr => some expr.erased

@[simp] def erasedElements : List (Option Expr) → List (Option Expr)
  | [] => []
  | element :: rest => erasedOptional element :: erasedElements rest

@[simp] def erasedProperties : List Property → List Property
  | [] => []
  | property :: rest => property.erased :: erasedProperties rest

@[simp] def Property.erased : Property → Property
  | .named name value _ => .named name value.erased false
  | .computed key value _ => .computed key.erased value.erased false

@[simp] def Stmt.erased : Stmt → Stmt
  | .var kind decls _ => .var kind (erasedDecls decls) {}
  | .function name params body _ _ =>
    .function name (params.map (⟨·.name, {}⟩)) (erasedStmts body) {} {}
  | .block body _ => .block (erasedStmts body) {}
  | .cond test consequent alternate _ =>
    .cond test.erased consequent.erased (erasedAlternate alternate) {}
  | .loop init test update body _ =>
    .loop init.erased (erasedOptional test) (erasedOptional update) body.erased {}
  | .whileLoop test body _ => .whileLoop test.erased body.erased {}
  | .doWhile body test _ => .doWhile body.erased test.erased {}
  | .exitLoop _ => .exitLoop {}
  | .nextLoop _ => .nextLoop {}
  | .ret arg _ => .ret (erasedOptional arg) {}
  | .throw arg _ => .throw arg.erased {}
  | .expr expr _ => .expr expr.erased {}
  | .empty _ => .empty {}
  | .unsupported kind _ => .unsupported kind {}

@[simp] def erasedAlternate : Option Stmt → Option Stmt
  | none => none
  | some stmt => some stmt.erased

@[simp] def erasedStmts : List Stmt → List Stmt
  | [] => []
  | stmt :: rest => stmt.erased :: erasedStmts rest

@[simp] def erasedDecls : List Declarator → List Declarator
  | [] => []
  | .mk name init _ :: rest => .mk name (erasedOptional init) {} :: erasedDecls rest

@[simp] def LoopInit.erased : LoopInit → LoopInit
  | .absent => .absent
  | .decl kind decls => .decl kind (erasedDecls decls)
  | .expr expr => .expr expr.erased

end

def Program.erased (program : Program) : Program := ⟨erasedStmts program.body, {}⟩

def isName (name : String) : Bool :=
  name.toList.all isIdentifierChar && name.toList.head?.any fun c => !c.isDigit

/-- Names that may be declared and referred to: identifiers that are no words of their own and do
not contain the separator. -/
def isPlainName (separator name : String) : Bool :=
  isName name && (Keyword.ofWord? name).isNone &&
    !decide (separator.toList <:+: name.toList)

def Double.isPlain (value : Double) : Bool := value.isFinite && !value.isNegative

def PropertyName.isReadable : PropertyName → Bool
  | ident name => isName name
  | string _ => true
  | number value => value.isPlain

mutual

/-- Expressions whose code shows all of them. Arrows with a block are written as functions, and a
sequence of one expression as an expression in parentheses. -/
def Expr.isReadable (separator : String) : Expr → Bool
  | .number value _ => value.isPlain
  | .regex pattern flags _ =>
    pattern.toList.all (· != '/') && flags.toList.all isIdentifierChar
  | .ident name _ => isPlainName separator name
  | .array elements _ => elementsAreReadable separator elements
  | .object properties _ => propertiesAreReadable separator properties
  | .function name params body _ _ =>
    name.all (isPlainName separator) && params.all (isPlainName separator ·.name) &&
      stmtsAreReadable separator body
  | .arrow params result _ _ =>
    params.all (isPlainName separator ·.name) && result.isReadable separator
  | .arrowBlock .. => false
  | .unary _ arg _ | .update _ _ arg _ => arg.isReadable separator
  | .binary _ left right _ | .assign _ left right _ | .index left right _ =>
    left.isReadable separator && right.isReadable separator
  | .conditional test consequent alternate _ =>
    test.isReadable separator && consequent.isReadable separator && alternate.isReadable separator
  | .sequence exprs _ => decide (2 ≤ exprs.length) && exprsAreReadable separator exprs
  | .member object name _ => object.isReadable separator && isName name
  | .call callee args _ | .new callee args _ =>
    callee.isReadable separator && exprsAreReadable separator args
  | _ => true

def exprsAreReadable (separator : String) : List Expr → Bool
  | [] => true
  | expr :: rest => expr.isReadable separator && exprsAreReadable separator rest

def optionalIsReadable (separator : String) : Option Expr → Bool
  | none => true
  | some expr => expr.isReadable separator

def elementsAreReadable (separator : String) : List (Option Expr) → Bool
  | [] => true
  | element :: rest => optionalIsReadable separator element && elementsAreReadable separator rest

def propertiesAreReadable (separator : String) : List Property → Bool
  | [] => true
  | property :: rest => property.isReadable separator && propertiesAreReadable separator rest

def Property.isReadable (separator : String) : Property → Bool
  | .named name value _ => name.isReadable && value.isReadable separator
  | .computed key value _ => key.isReadable separator && value.isReadable separator

/-- Statements whose code shows all of them. Only the first declarator of a group is written, a
function without a name is written as an expression, and a branch before an `else` in braces. -/
def Stmt.isReadable (separator : String) : Stmt → Bool
  | .var _ decls _ => declsAreReadable separator decls
  | .function name params body _ _ =>
    name.any (isPlainName separator) && params.all (isPlainName separator ·.name) &&
      stmtsAreReadable separator body
  | .block body _ => stmtsAreReadable separator body
  | .cond test consequent alternate _ =>
    test.isReadable separator && consequent.isReadable separator &&
      (alternate.isNone || consequent.isBlock) && alternateIsReadable separator alternate
  | .loop init test update body _ =>
    init.isReadable separator && optionalIsReadable separator test &&
      optionalIsReadable separator update && body.isReadable separator
  | .whileLoop test body _ | .doWhile body test _ =>
    test.isReadable separator && body.isReadable separator
  | .ret arg _ => optionalIsReadable separator arg
  | .throw arg _ | .expr arg _ => arg.isReadable separator
  | _ => true

def alternateIsReadable (separator : String) : Option Stmt → Bool
  | none => true
  | some stmt => stmt.isReadable separator

def stmtsAreReadable (separator : String) : List Stmt → Bool
  | [] => true
  | stmt :: rest => stmt.isReadable separator && stmtsAreReadable separator rest

def declsAreReadable (separator : String) : List Declarator → Bool
  | [.mk name init _] => isPlainName separator name && optionalIsReadable separator init
  | _ => false

def LoopInit.isReadable (separator : String) : LoopInit → Bool
  | .absent => true
  | .decl _ decls => declsAreReadable separator decls
  | .expr expr => expr.isReadable separator

end

def Program.isReadable (separator : String) (program : Program) : Bool :=
  stmtsAreReadable separator program.body

end Freshen
