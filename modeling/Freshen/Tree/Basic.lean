import Freshen.Number.Double
import Freshen.Tree.Operator

/-!
JavaScript programs as trees. Names at declaration sites are plain strings; every other identifier
is an `Expr.ident`. A node that cannot be written is kept by its type name.
-/

namespace Freshen

/-- A half-open range of byte offsets in the text a tree was parsed from, which are 32-bit words. -/
structure Span where
  start : UInt32 := 0
  stop : UInt32 := 0
deriving DecidableEq, Repr, Inhabited

def Span.text (span : Span) : String := s!"{span.start.toNat}..{span.stop.toNat}"

structure Param where
  name : String
  span : Span := {}
deriving DecidableEq, Repr

inductive PropertyName where
  | ident (name : String)
  | string (value : String)
  | number (value : Double)
deriving DecidableEq, Repr

mutual

/-- Expressions. Functions and arrows have a span of their own (`inner`) besides the node's. -/
inductive Expr where
  | null (span : Span)
  | bool (value : Bool) (span : Span)
  | number (value : Double) (span : Span)
  | string (value : String) (span : Span)
  | regex (pattern flags : String) (span : Span)
  | ident (name : String) (span : Span)
  /-- An array literal; `none` is a hole. -/
  | array (elements : List (Option Expr)) (span : Span)
  | object (properties : List Property) (span : Span)
  | function (name : Option String) (params : List Param) (body : List Stmt) (inner span : Span)
  /-- An arrow whose body is an expression. -/
  | arrow (params : List Param) (result : Expr) (inner span : Span)
  /-- An arrow whose body is a block. -/
  | arrowBlock (params : List Param) (body : List Stmt) (inner span : Span)
  | unary (op : UnaryOp) (arg : Expr) (span : Span)
  | binary (op : BinaryOp) (left right : Expr) (span : Span)
  | assign (op : AssignOp) (target value : Expr) (span : Span)
  | update (op : UpdateOp) (before : Bool) (arg : Expr) (span : Span)
  | conditional (test consequent alternate : Expr) (span : Span)
  | sequence (exprs : List Expr) (span : Span)
  /-- `object.name` -/
  | member (object : Expr) (name : String) (span : Span)
  /-- `object[property]` -/
  | index (object property : Expr) (span : Span)
  | call (callee : Expr) (args : List Expr) (span : Span)
  | new (callee : Expr) (args : List Expr) (span : Span)
  | unsupported (kind : String) (span : Span)

inductive Property where
  | named (name : PropertyName) (value : Expr) (shorthand : Bool)
  | computed (key value : Expr) (shorthand : Bool)

inductive Stmt where
  /-- A declaration group. -/
  | var (kind : DeclKind) (decls : List Declarator) (span : Span)
  | function (name : Option String) (params : List Param) (body : List Stmt) (inner span : Span)
  | block (body : List Stmt) (span : Span)
  | cond (test : Expr) (consequent : Stmt) (alternate : Option Stmt) (span : Span)
  | loop (init : LoopInit) (test update : Option Expr) (body : Stmt) (span : Span)
  | whileLoop (test : Expr) (body : Stmt) (span : Span)
  | doWhile (body : Stmt) (test : Expr) (span : Span)
  | exitLoop (span : Span)
  | nextLoop (span : Span)
  | ret (arg : Option Expr) (span : Span)
  | throw (arg : Expr) (span : Span)
  | expr (expr : Expr) (span : Span)
  | empty (span : Span)
  | unsupported (kind : String) (span : Span)

inductive Declarator where
  | mk (name : String) (init : Option Expr) (span : Span)

inductive LoopInit where
  | absent
  | decl (kind : DeclKind) (decls : List Declarator)
  | expr (expr : Expr)

end

instance : Inhabited Expr := ⟨.null {}⟩

instance : Inhabited Property := ⟨.computed default default false⟩

instance : Inhabited Stmt := ⟨.empty {}⟩

instance : Inhabited Declarator := ⟨.mk "" none {}⟩

structure Program where
  body : List Stmt
  span : Span := {}

namespace Declarator

def name : Declarator → String
  | mk name _ _ => name

end Declarator

namespace Stmt

def isBlock : Stmt → Bool
  | block .. => true
  | _ => false

/-- The name a statement declares in the list it stands in: that of a function, or the first of a
declaration group. -/
def hoistedName : Stmt → Option String
  | var _ decls _ => decls.head?.map Declarator.name
  | function name .. => name
  | _ => none

end Stmt

end Freshen
