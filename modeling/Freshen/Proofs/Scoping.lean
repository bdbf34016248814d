import Freshen.Code.Draft

/-!
Scoping read off the tree alone. The frames of a program are the program itself, its blocks, its
functions and its `for` loops, numbered from zero in the order in which they open. What stands
after the first declarator of a group is never written, and has neither frames nor names here.
-/

namespace Freshen

def hoistedNames (body : List Stmt) : List String := body.filterMap Stmt.hoistedName

/-- The names of the frame of a function: its own name if the frame holds it, its parameters, and
what its body declares. -/
def functionNames (name : Option String) (params : List Param) (body : List Stmt) : List String :=
  (name.toList ++ params.map Param.name ++ hoistedNames body).eraseDups

def LoopInit.names : LoopInit → List String
  | .decl _ (first :: _) => [first.name]
  | _ => []

mutual

/-- The declared names of every frame inside, in order and without repeats. -/
def Expr.frames : Expr → List (List String)
  | .array elements _ => elementFrames elements
  | .object properties _ => propertyFrames properties
  | .function name params body _ _ => functionNames name params body :: stmtsFrames body
  | .arrow params result _ _ => functionNames none params [] :: result.frames
  | .arrowBlock params body _ _ => functionNames none params body :: stmtsFrames body
  | .unary _ arg _ | .update _ _ arg _ | .member arg _ _ => arg.frames
  | .binary _ left right _ | .assign _ left right _ | .index left right _ =>
    left.frames ++ right.frames
  | .conditional test consequent alternate _ =>
    test.frames ++ consequent.frames ++ alternate.frames
  | .sequence exprs _ => exprsFrames exprs
  | .call callee args _ | .new callee args _ => callee.frames ++ exprsFrames args
  | _ => []

def exprsFrames : List Expr → List (List String)
  | [] => []
  | expr :: rest => expr.frames ++ exprsFrames rest

def optionalFrames : Option Expr → List (List String)
  | none => []
  | some expr => expr.frames

def elementFrames : List (Option Expr) → List (List String)
  | [] => []
  | element :: rest => optionalFrames element ++ elementFrames rest

def propertyFrames : List Property → List (List String)
  | [] => []
  | property :: rest => property.frames ++ propertyFrames rest

def Property.frames : Property → List (List String)
  | .named _ value _ => value.frames
  | .computed key value _ => key.frames ++ value.frames

def Stmt.frames : Stmt → List (List String)
  | .var _ decls _ => declFrames decls
  | .function _ params body _ _ => functionNames none params body :: stmtsFrames body
  | .block body _ => (hoistedNames body).eraseDups :: stmtsFrames body
  | .cond test consequent alternate _ =>
    test.frames ++ consequent.frames ++ alternateFrames alternate
  | .loop init test update body _ =>
    init.names :: (init.frames ++ optionalFrames test ++ optionalFrames update ++ body.frames)
  | .whileLoop test body _ => test.frames ++ body.frames
  | .doWhile body test _ => body.frames ++ test.frames
  | .ret arg _ => optionalFrames arg
  | .throw arg _ | .expr arg _ => arg.frames
  | _ => []

def alternateFrames : Option Stmt → List (List String)
  | none => []
  | some stmt => stmt.frames

def stmtsFrames : List Stmt → List (List String)
  | [] => []
  | stmt :: rest => stmt.frames ++ stmtsFrames rest

def declFrames : List Declarator → List (List String)
  | [] => []
  | .mk _ init _ :: _ => optionalFrames init

def LoopInit.frames : LoopInit → List (List String)
  | .absent => []
  | .decl _ decls => declFrames decls
  | .expr expr => expr.frames

end

/-- The declared names of every frame; the number of a frame is its place in the list. -/
def Program.frames (program : Program) : List (List String) :=
  (hoistedNames program.body).eraseDups :: stmtsFrames program.body

/-- A name where it is written, with the numbers of the frames around it, innermost first. -/
structure Occurrence where
  name : String
  frames : List Nat
  /-- Whether this is a place where the innermost frame declares the name. -/
  declares : Bool
deriving DecidableEq, Repr

def paramOccurrences (frames : List Nat) (params : List Param) : List Occurrence :=
  params.map fun param => ⟨param.name, frames, true⟩

def nameOccurrences (frames : List Nat) (name : Option String) : List Occurrence :=
  name.toList.map fun name => ⟨name, frames, true⟩

mutual

/-- The names written inside, in the order of the text. `next` is the number of the first frame
that opens inside. -/
def Expr.occurrences (frames : List Nat) (next : Nat) : Expr → List Occurrence
  | .ident name _ => [⟨name, frames, false⟩]
  | .array elements _ => elementOccurrences frames next elements
  | .object properties _ => propertyOccurrences frames next properties
  | .function name params body _ _ =>
    nameOccurrences (next :: frames) name ++ paramOccurrences (next :: frames) params ++
      stmtsOccurrences (next :: frames) (next + 1) body
  | .arrow params result _ _ =>
    paramOccurrences (next :: frames) params ++ result.occurrences (next :: frames) (next + 1)
  | .arrowBlock params body _ _ =>
    paramOccurrences (next :: frames) params ++ stmtsOccurrences (next :: frames) (next + 1) body
  | .unary _ arg _ | .update _ _ arg _ | .member arg _ _ => arg.occurrences frames next
  | .binary _ left right _ | .assign _ left right _ | .index left right _ =>
    left.occurrences frames next ++ right.occurrences frames (next + left.frames.length)
  | .conditional test consequent alternate _ =>
    test.occurrences frames next ++ consequent.occurrences frames (next + test.frames.length) ++
      alternate.occurrences frames (next + test.frames.length + consequent.frames.length)
  | .sequence exprs _ => exprsOccurrences frames next exprs
  | .call callee args _ | .new callee args _ =>
    callee.occurrences frames next ++ exprsOccurrences frames (next + callee.frames.length) args
  | _ => []

def exprsOccurrences (frames : List Nat) (next : Nat) : List Expr → List Occurrence
  | [] => []
  | expr :: rest =>
    expr.occurrences frames next ++ exprsOccurrences frames (next + expr.frames.length) rest

def optionalOccurrences (frames : List Nat) (next : Nat) : Option Expr → List Occurrence
  | none => []
  | some expr => expr.occurrences frames next

def elementOccurrences (frames : List Nat) (next : Nat) : List (Option Expr) → List Occurrence
  | [] => []
  | element :: rest =>
    optionalOccurrences frames next element ++
      elementOccurrences frames (next + (optionalFrames element).length) rest

def propertyOccurrences (frames : List Nat) (next : Nat) : List Property → List Occurrence
  | [] => []
  | property :: rest =>
    property.occurrences frames next ++
      propertyOccurrences frames (next + property.frames.length) rest

def Property.occurrences (frames : List Nat) (next : Nat) : Property → List Occurrence
  | .named _ value _ => value.occurrences frames next
  | .computed key value _ =>
    key.occurrences frames next ++ value.occurrences frames (next + key.frames.length)

def Stmt.occurrences (frames : List Nat) (next : Nat) : Stmt → List Occurrence
  | .var _ decls _ => declOccurrences frames next decls
  | .function name params body _ _ =>
    nameOccurrences frames name ++ paramOccurrences (next :: frames) params ++
      stmtsOccurrences (next :: frames) (next + 1) body
  | .block body _ => stmtsOccurrences (next :: frames) (next + 1) body
  | .cond test consequent alternate _ =>
    test.occurrences frames next ++ consequent.occurrences frames (next + test.frames.length) ++
      alternateOccurrences frames (next + test.frames.length + consequent.frames.length) alternate
  | .loop init test update body _ =>
    init.occurrences (next :: frames) (next + 1) ++
      optionalOccurrences (next :: frames) (next + 1 + init.frames.length) test ++
      optionalOccurrences (next :: frames)
        (next + 1 + init.frames.length + (optionalFrames test).length) update ++
      body.occurrences (next :: frames)
        (next + 1 + init.frames.length + (optionalFrames test).length +
          (optionalFrames update).length)
  | .whileLoop test body _ =>
    test.occurrences frames next ++ body.occurrences frames (next + test.frames.length)
  | .doWhile body test _ =>
    body.occurrences frames next ++ test.occurrences frames (next + body.frames.length)
  | .ret arg _ => optionalOccurrences frames next arg
  | .throw arg _ | .expr arg _ => arg.occurrences frames next
  | _ => []

def alternateOccurrences (frames : List Nat) (next : Nat) : Option Stmt → List Occurrence
  | none => []
  | some stmt => stmt.occurrences frames next

def stmtsOccurrences (frames : List Nat) (next : Nat) : List Stmt → List Occurrence
  | [] => []
  | stmt :: rest =>
    stmt.occurrences frames next ++ stmtsOccurrences frames (next + stmt.frames.length) rest

def declOccurrences (frames : List Nat) (next : Nat) : List Declarator → List Occurrence
  | [] => []
  | .mk name init _ :: _ => ⟨name, frames, true⟩ :: optionalOccurrences frames next init

def LoopInit.occurrences (frames : List Nat) (next : Nat) : LoopInit → List Occurrence
  | .absent => []
  | .decl _ decls => declOccurrences frames next decls
  | .expr expr => expr.occurrences frames next

end

def Program.occurrences (program : Program) : List Occurrence :=
  stmtsOccurrences [0] 1 program.body

/-! Renaming: every written name is replaced by what `rename` makes of its occurrence. -/

section Rename

variable (rename : Occurrence → String)

def renameName (frames : List Nat) (name : Option String) : Option String :=
  name.map fun name => rename ⟨name, frames, true⟩

def renameParams (frames : List Nat) (params : List Param) : List Param :=
  params.map fun param => { param with name := rename ⟨param.name, frames, true⟩ }

mutual

def Expr.renamed (frames : List Nat) (next : Nat) : Expr → Expr
  | .null span => .null span
  | .bool value span => .bool value span
  | .number value span => .number value span
  | .string value span => .string value span
  | .regex pattern flags span => .regex pattern flags span
  | .ident name span => .ident (rename ⟨name, frames, false⟩) span
  | .array elements span => .array (renamedElements frames next elements) span
  | .object properties span => .object (renamedProperties frames next properties) span
  | .function name params body inner span =>
    .function (renameName rename (next :: frames) name)
      (renameParams rename (next :: frames) params)
      (renamedStmts (next :: frames) (next + 1) body) inner span
  | .arrow params result inner span =>
    .arrow (renameParams rename (next :: frames) params)
      (result.renamed (next :: frames) (next + 1)) inner span
  | .arrowBlock params body inner span =>
    .arrowBlock (renameParams rename (next :: frames) params)
      (renamedStmts (next :: frames) (next + 1) body) inner span
  | .unary op arg span => .unary op (arg.renamed frames next) span
  | .binary op left right span =>
    .binary op (left.renamed frames next) (right.renamed frames (next + left.frames.length)) span
  | .assign op target value span =>
    .assign op (target.renamed frames next) (value.renamed frames (next + target.frames.length))
      span
  | .update op before arg span => .update op before (arg.renamed frames next) span
  | .conditional test consequent alternate span =>
    .conditional (test.renamed frames next) (consequent.renamed frames (next + test.frames.length))
      (alternate.renamed frames (next + test.frames.length + consequent.frames.length)) span
  | .sequence exprs span => .sequence (renamedExprs frames next exprs) span
  | .member object name span => .member (object.renamed frames next) name span
  | .index object property span =>
    .index (object.renamed frames next) (property.renamed frames (next + object.frames.length)) span
  | .call callee args span =>
    .call (callee.renamed frames next) (renamedExprs frames (next + callee.frames.length) args) span
  | .new callee args span =>
    .new (callee.renamed frames next) (renamedExprs frames (next + callee.frames.length) args) span
  | .unsupported kind span => .unsupported kind span

def renamedExprs (frames : List Nat) (next : Nat) : List Expr → List Expr
  | [] => []
  | expr :: rest =>
    expr.renamed frames next :: renamedExprs frames (next + expr.frames.length) rest

def renamedOptional (frames : List Nat) (next : Nat) : Option Expr → Option Expr
  | none => none
  | some expr => some (expr.renamed frames next)

def renamedElements (frames : List Nat) (next : Nat) : List (Option Expr) → List (Option Expr)
  | [] => []
  | element :: rest =>
    renamedOptional frames next element ::
      renamedElements frames (next + (optionalFrames element).length) rest

def renamedProperties (frames : List Nat) (next : Nat) : List Property → List Property
  | [] => []
  | property :: rest =>
    property.renamed frames next ::
      renamedProperties frames (next + property.frames.length) rest

def Property.renamed (frames : List Nat) (next : Nat) : Property → Property
  | .named name value shorthand => .named name (value.renamed frames next) shorthand
  | .computed key value shorthand =>
    .computed (key.renamed frames next) (value.renamed frames (next + key.frames.length)) shorthand

def Stmt.renamed (frames : List Nat) (next : Nat) : Stmt → Stmt
  | .var kind decls span => .var kind (renamedDecls frames next decls) span
  | .function name params body inner span =>
    .function (renameName rename frames name) (renameParams rename (next :: frames) params)
      (renamedStmts (next :: frames) (next + 1) body) inner span
  | .block body span => .block (renamedStmts (next :: frames) (next + 1) body) span
  | .cond test consequent alternate span =>
    .cond (test.renamed frames next) (consequent.renamed frames (next + test.frames.length))
      (renamedAlternate frames (next + test.frames.length + consequent.frames.length) alternate)
      span
  | .loop init test update body span =>
    .loop (init.renamed (next :: frames) (next + 1))
      (renamedOptional (next :: frames) (next + 1 + init.frames.length) test)
      (renamedOptional (next :: frames)
        (next + 1 + init.frames.length + (optionalFrames test).length) update)
      (body.renamed (next :: frames)
        (next + 1 + init.frames.length + (optionalFrames test).length +
          (optionalFrames update).length)) span
  | .whileLoop test body span =>
    .whileLoop (test.renamed frames next) (body.renamed frames (next + test.frames.length)) span
  | .doWhile body test span =>
    .doWhile (body.renamed frames next) (test.renamed frames (next + body.frames.length)) span
  | .exitLoop span => .exitLoop span
  | .nextLoop span => .nextLoop span
  | .ret arg span => .ret (renamedOptional frames next arg) span
  | .throw arg span => .throw (arg.renamed frames next) span
  | .expr expr span => .expr (expr.renamed frames next) span
  | .empty span => .empty span
  | .unsupported kind span => .unsupported kind span

def renamedAlternate (frames : List Nat) (next : Nat) : Option Stmt → Option Stmt
  | none => none
  | some stmt => some (stmt.renamed frames next)

def renamedStmts (frames : List Nat) (next : Nat) : List Stmt → List Stmt
  | [] => []
  | stmt :: rest =>
    stmt.renamed frames next :: renamedStmts frames (next + stmt.frames.length) rest

/-- Declarators after the first are never written, and stay. -/
def renamedDecls (frames : List Nat) (next : Nat) : List Declarator → List Declarator
  | [] => []
  | .mk name init span :: rest =>
    .mk (rename ⟨name, frames, true⟩) (renamedOptional frames next init) span :: rest

def LoopInit.renamed (frames : List Nat) (next : Nat) : LoopInit → LoopInit
  | .absent => .absent
  | .decl kind decls => .decl kind (renamedDecls frames next decls)
  | .expr expr => .expr (expr.renamed frames next)

end

def Program.renamed (program : Program) : Program :=
  { program with body := renamedStmts rename [0] 1 program.body }

end Rename

/-! Declarations that stand alone as the branch of an `if` or as the body of a loop. -/

def Stmt.isDeclaration : Stmt → Bool
  | .var .. | .function .. => true
  | _ => false

mutual

/-- No branch of an `if` and no body of a loop is itself a declaration. -/
def Expr.hasNoBareDeclaration : Expr → Bool
  | .array elements _ => elementsHaveNoBareDeclaration elements
  | .object properties _ => propertiesHaveNoBareDeclaration properties
  | .function _ _ body _ _ | .arrowBlock _ body _ _ => stmtsHaveNoBareDeclaration body
  | .arrow _ arg _ _ | .unary _ arg _ | .update _ _ arg _ | .member arg _ _ =>
    arg.hasNoBareDeclaration
  | .binary _ left right _ | .assign _ left right _ | .index left right _ =>
    left.hasNoBareDeclaration && right.hasNoBareDeclaration
  | .conditional test consequent alternate _ =>
    test.hasNoBareDeclaration && consequent.hasNoBareDeclaration && alternate.hasNoBareDeclaration
  | .sequence exprs _ => exprsHaveNoBareDeclaration exprs
  | .call callee args _ | .new callee args _ =>
    callee.hasNoBareDeclaration && exprsHaveNoBareDeclaration args
  | _ => true

def exprsHaveNoBareDeclaration : List Expr → Bool
  | [] => true
  | expr :: rest => expr.hasNoBareDeclaration && exprsHaveNoBareDeclaration rest

def optionalHasNoBareDeclaration : Option Expr → Bool
  | none => true
  | some expr => expr.hasNoBareDeclaration

def elementsHaveNoBareDeclaration : List (Option Expr) → Bool
  | [] => true
  | element :: rest => optionalHasNoBareDeclaration element && elementsHaveNoBareDeclaration rest

def propertiesHaveNoBareDeclaration : List Property → Bool
  | [] => true
  | property :: rest => property.hasNoBareDeclaration && propertiesHaveNoBareDeclaration rest

def Property.hasNoBareDeclaration : Property → Bool
  | .named _ value _ => value.hasNoBareDeclaration
  | .computed key value _ => key.hasNoBareDeclaration && value.hasNoBareDeclaration

def Stmt.hasNoBareDeclaration : Stmt → Bool
  | .var _ decls _ => declsHaveNoBareDeclaration decls
  | .function _ _ body _ _ | .block body _ => stmtsHaveNoBareDeclaration body
  | .cond test consequent alternate _ =>
    test.hasNoBareDeclaration && (!consequent.isDeclaration && consequent.hasNoBareDeclaration) &&
      alternateHasNoBareDeclaration alternate
  | .loop init test update body _ =>
    init.hasNoBareDeclaration && optionalHasNoBareDeclaration test &&
      optionalHasNoBareDeclaration update && (!body.isDeclaration && body.hasNoBareDeclaration)
  | .whileLoop test body _ | .doWhile body test _ =>
    test.hasNoBareDeclaration && (!body.isDeclaration && body.hasNoBareDeclaration)
  | .ret arg _ => optionalHasNoBareDeclaration arg
  | .throw arg _ | .expr arg _ => arg.hasNoBareDeclaration
  | _ => true

def alternateHasNoBareDeclaration : Option Stmt → Bool
  | none => true
  | some stmt => !stmt.isDeclaration && stmt.hasNoBareDeclaration

def stmtsHaveNoBareDeclaration : List Stmt → Bool
  | [] => true
  | stmt :: rest => stmt.hasNoBareDeclaration && stmtsHaveNoBareDeclaration rest

def declsHaveNoBareDeclaration : List Declarator → Bool
  | [] => true
  | .mk _ init _ :: _ => optionalHasNoBareDeclaration init

def LoopInit.hasNoBareDeclaration : LoopInit → Bool
  | .absent => true
  | .decl _ decls => declsHaveNoBareDeclaration decls
  | .expr expr => expr.hasNoBareDeclaration

end

def Program.hasNoBareDeclaration (program : Program) : Bool :=
  stmtsHaveNoBareDeclaration program.body

end Freshen
