import Freshen.Proofs.Scoping

/-!
Marks on the frames and the written names of a tree: what opens a frame, and which names stand
behind the word `var`. Both follow the order in which frames and names are listed.
-/

namespace Freshen

/-- What opens a frame. The program, blocks and loops are plain. -/
inductive FrameKind where
  | plain | function | arrow
deriving DecidableEq, Repr

mutual

def Expr.frameKinds : Expr → List FrameKind
  | .array elements _ => elementFrameKinds elements
  | .object properties _ => propertyFrameKinds properties
  | .function _ _ body _ _ => .function :: stmtsFrameKinds body
  | .arrow _ result _ _ => .arrow :: result.frameKinds
  | .arrowBlock _ body _ _ => .arrow :: stmtsFrameKinds body
  | .unary _ arg _ | .update _ _ arg _ | .member arg _ _ => arg.frameKinds
  | .binary _ left right _ | .assign _ left right _ | .index left right _ =>
    left.frameKinds ++ right.frameKinds
  | .conditional test consequent alternate _ =>
    test.frameKinds ++ consequent.frameKinds ++ alternate.frameKinds
  | .sequence exprs _ => exprsFrameKinds exprs
  | .call callee args _ | .new callee args _ => callee.frameKinds ++ exprsFrameKinds args
  | _ => []

def exprsFrameKinds : List Expr → List FrameKind
  | [] => []
  | expr :: rest => expr.frameKinds ++ exprsFrameKinds rest

def optionalFrameKinds : Option Expr → List FrameKind
  | none => []
  | some expr => expr.frameKinds

def elementFrameKinds : List (Option Expr) → List FrameKind
  | [] => []
  | element :: rest => optionalFrameKinds element ++ elementFrameKinds rest

def propertyFrameKinds : List Property → List FrameKind
  | [] => []
  | property :: rest => property.frameKinds ++ propertyFrameKinds rest

def Property.frameKinds : Property → List FrameKind
  | .named _ value _ => value.frameKinds
  | .computed key value _ => key.frameKinds ++ value.frameKinds

def Stmt.frameKinds : Stmt → List FrameKind
  | .var _ decls _ => declFrameKinds decls
  | .function _ _ body _ _ => .function :: stmtsFrameKinds body
  | .block body _ => .plain :: stmtsFrameKinds body
  | .cond test consequent alternate _ =>
    test.frameKinds ++ consequent.frameKinds ++ alternateFrameKinds alternate
  | .loop init test update body _ =>
    .plain :: (init.frameKinds ++ optionalFrameKinds test ++ optionalFrameKinds update ++
      body.frameKinds)
  | .whileLoop test body _ => test.frameKinds ++ body.frameKinds
  | .doWhile body test _ => body.frameKinds ++ test.frameKinds
  | .ret arg _ => optionalFrameKinds arg
  | .throw arg _ | .expr arg _ => arg.frameKinds
  | _ => []

def alternateFrameKinds : Option Stmt → List FrameKind
  | none => []
  | some stmt => stmt.frameKinds

def stmtsFrameKinds : List Stmt → List FrameKind
  | [] => []
  | stmt :: rest => stmt.frameKinds ++ stmtsFrameKinds rest

def declFrameKinds : List Declarator → List FrameKind
  | [] => []
  | .mk _ init _ :: _ => optionalFrameKinds init

def LoopInit.frameKinds : LoopInit → List FrameKind
  | .absent => []
  | .decl _ decls => declFrameKinds decls
  | .expr expr => expr.frameKinds

end

namespace Program

def frameKinds (program : Program) : List FrameKind := .plain :: stmtsFrameKinds program.body

def frameKind (program : Program) (frame : Nat) : FrameKind :=
  program.frameKinds[frame]?.getD .plain

end Program

def nameVarMarks (name : Option String) : List Bool := name.toList.map fun _ => false

def paramVarMarks (params : List Param) : List Bool := params.map fun _ => false

mutual

/-- For every name written inside, whether it stands directly behind the word `var`. -/
def Expr.varMarks : Expr → List Bool
  | .ident _ _ => [false]
  | .array elements _ => elementVarMarks elements
  | .object properties _ => propertyVarMarks properties
  | .function name params body _ _ =>
    nameVarMarks name ++ paramVarMarks params ++ stmtsVarMarks body
  | .arrow params result _ _ => paramVarMarks params ++ result.varMarks
  | .arrowBlock params body _ _ => paramVarMarks params ++ stmtsVarMarks body
  | .unary _ arg _ | .update _ _ arg _ | .member arg _ _ => arg.varMarks
  | .binary _ left right _ | .assign _ left right _ | .index left right _ =>
    left.varMarks ++ right.varMarks
  | .conditional test consequent alternate _ =>
    test.varMarks ++ consequent.varMarks ++ alternate.varMarks
  | .sequence exprs _ => exprsVarMarks exprs
  | .call callee args _ | .new callee args _ => callee.varMarks ++ exprsVarMarks args
  | _ => []

def exprsVarMarks : List Expr → List Bool
  | [] => []
  | expr :: rest => expr.varMarks ++ exprsVarMarks rest

def optionalVarMarks : Option Expr → List Bool
  | none => []
  | some expr => expr.varMarks

def elementVarMarks : List (Option Expr) → List Bool
  | [] => []
  | element :: rest => optionalVarMarks element ++ elementVarMarks rest

def propertyVarMarks : List Property → List Bool
  | [] => []
  | property :: rest => property.varMarks ++ propertyVarMarks rest

def Property.varMarks : Property → List Bool
  | .named _ value _ => value.varMarks
  | .computed key value _ => key.varMarks ++ value.varMarks

def Stmt.varMarks : Stmt → List Bool
  | .var kind decls _ => declVarMarks kind decls
  | .function name params body _ _ =>
    nameVarMarks name ++ paramVarMarks params ++ stmtsVarMarks body
  | .block body _ => stmtsVarMarks body
  | .cond test consequent alternate _ =>
    test.varMarks ++ consequent.varMarks ++ alternateVarMarks alternate
  | .loop init test update body _ =>
    init.varMarks ++ optionalVarMarks test ++ optionalVarMarks update ++ body.varMarks
  | .whileLoop test body _ => test.varMarks ++ body.varMarks
  | .doWhile body test _ => body.varMarks ++ test.varMarks
  | .ret arg _ => optionalVarMarks arg
  | .throw arg _ | .expr arg _ => arg.varMarks
  | _ => []

def alternateVarMarks : Option Stmt → List Bool
  | none => []
  | some stmt => stmt.varMarks

def stmtsVarMarks : List Stmt → List Bool
  | [] => []
  | stmt :: rest => stmt.varMarks ++ stmtsVarMarks rest

def declVarMarks (kind : DeclKind) : List Declarator → List Bool
  | [] => []
  | .mk _ init _ :: _ => (kind == .var) :: optionalVarMarks init

def LoopInit.varMarks : LoopInit → List Bool
  | .absent => []
  | .decl kind decls => declVarMarks kind decls
  | .expr expr => expr.varMarks

end

/-! There is a mark for every written name. -/

mutual

theorem Expr.length_varMarks (expr : Expr) (frames : List Nat) (next : Nat) :
    expr.varMarks.length = (expr.occurrences frames next).length := by
  match expr with
  | .null _ | .bool _ _ | .number _ _ | .string _ _ | .regex _ _ _ | .ident _ _
  | .unsupported _ _ => simp [Expr.varMarks, Expr.occurrences]
  | .array elements _ =>
      simp only [Expr.varMarks, Expr.occurrences, length_elementVarMarks elements frames next]
  | .object properties _ =>
      simp only [Expr.varMarks, Expr.occurrences, length_propertyVarMarks properties frames next]
  | .function name params body _ _ =>
      simp only [Expr.varMarks, Expr.occurrences, nameVarMarks, paramVarMarks, nameOccurrences,
        paramOccurrences, List.length_append, List.length_map,
        length_stmtsVarMarks body (next :: frames) (next + 1)]
  | .arrow params result _ _ =>
      simp only [Expr.varMarks, Expr.occurrences, paramVarMarks, paramOccurrences,
        List.length_append, List.length_map, result.length_varMarks (next :: frames) (next + 1)]
  | .arrowBlock params body _ _ =>
      simp only [Expr.varMarks, Expr.occurrences, paramVarMarks, paramOccurrences,
        List.length_append, List.length_map, length_stmtsVarMarks body (next :: frames) (next + 1)]
  | .unary _ arg _ | .update _ _ arg _ | .member arg _ _ =>
      simp only [Expr.varMarks, Expr.occurrences, arg.length_varMarks frames next]
  | .binary _ left right _ | .assign _ left right _ | .index left right _ =>
      simp only [Expr.varMarks, Expr.occurrences, List.length_append,
        left.length_varMarks frames next, right.length_varMarks frames (next + left.frames.length)]
  | .conditional test consequent alternate _ =>
      simp only [Expr.varMarks, Expr.occurrences, List.length_append,
        test.length_varMarks frames next,
        consequent.length_varMarks frames (next + test.frames.length),
        alternate.length_varMarks frames
          (next + test.frames.length + consequent.frames.length)]
  | .sequence exprs _ =>
      simp only [Expr.varMarks, Expr.occurrences, length_exprsVarMarks exprs frames next]
  | .call callee args _ | .new callee args _ =>
      simp only [Expr.varMarks, Expr.occurrences, List.length_append,
        callee.length_varMarks frames next,
        length_exprsVarMarks args frames (next + callee.frames.length)]

theorem length_exprsVarMarks (exprs : List Expr) (frames : List Nat) (next : Nat) :
    (exprsVarMarks exprs).length = (exprsOccurrences frames next exprs).length := by
  match exprs with
  | [] => simp [exprsVarMarks, exprsOccurrences]
  | expr :: rest =>
      simp only [exprsVarMarks, exprsOccurrences, List.length_append,
        expr.length_varMarks frames next,
        length_exprsVarMarks rest frames (next + expr.frames.length)]

theorem length_optionalVarMarks (optional : Option Expr) (frames : List Nat) (next : Nat) :
    (optionalVarMarks optional).length = (optionalOccurrences frames next optional).length := by
  match optional with
  | none => simp [optionalVarMarks, optionalOccurrences]
  | some expr =>
      simp only [optionalVarMarks, optionalOccurrences, expr.length_varMarks frames next]

theorem length_elementVarMarks (elements : List (Option Expr)) (frames : List Nat) (next : Nat) :
    (elementVarMarks elements).length = (elementOccurrences frames next elements).length := by
  match elements with
  | [] => simp [elementVarMarks, elementOccurrences]
  | element :: rest =>
      simp only [elementVarMarks, elementOccurrences, List.length_append,
        length_optionalVarMarks element frames next,
        length_elementVarMarks rest frames (next + (optionalFrames element).length)]

theorem length_propertyVarMarks (properties : List Property) (frames : List Nat) (next : Nat) :
    (propertyVarMarks properties).length =
      (propertyOccurrences frames next properties).length := by
  match properties with
  | [] => simp [propertyVarMarks, propertyOccurrences]
  | property :: rest =>
      simp only [propertyVarMarks, propertyOccurrences, List.length_append,
        property.length_varMarks frames next,
        length_propertyVarMarks rest frames (next + property.frames.length)]

theorem Property.length_varMarks (property : Property) (frames : List Nat) (next : Nat) :
    property.varMarks.length = (property.occurrences frames next).length := by
  match property with
  | .named _ value _ =>
      simp only [Property.varMarks, Property.occurrences, value.length_varMarks frames next]
  | .computed key value _ =>
      simp only [Property.varMarks, Property.occurrences, List.length_append,
        key.length_varMarks frames next, value.length_varMarks frames (next + key.frames.length)]

theorem Stmt.length_varMarks (stmt : Stmt) (frames : List Nat) (next : Nat) :
    stmt.varMarks.length = (stmt.occurrences frames next).length := by
  match stmt with
  | .var kind decls _ =>
      simp only [Stmt.varMarks, Stmt.occurrences, length_declVarMarks kind decls frames next]
  | .function name params body _ _ =>
      simp only [Stmt.varMarks, Stmt.occurrences, nameVarMarks, paramVarMarks, nameOccurrences,
        paramOccurrences, List.length_append, List.length_map,
        length_stmtsVarMarks body (next :: frames) (next + 1)]
  | .block body _ =>
      simp only [Stmt.varMarks, Stmt.occurrences,
        length_stmtsVarMarks body (next :: frames) (next + 1)]
  | .cond test consequent alternate _ =>
      simp only [Stmt.varMarks, Stmt.occurrences, List.length_append,
        test.length_varMarks frames next,
        consequent.length_varMarks frames (next + test.frames.length),
        length_alternateVarMarks alternate frames
          (next + test.frames.length + consequent.frames.length)]
  | .loop init test update body _ =>
      simp only [Stmt.varMarks, Stmt.occurrences, List.length_append,
        init.length_varMarks (next :: frames) (next + 1),
        length_optionalVarMarks test (next :: frames) (next + 1 + init.frames.length),
        length_optionalVarMarks update (next :: frames)
          (next + 1 + init.frames.length + (optionalFrames test).length),
        body.length_varMarks (next :: frames) (next + 1 + init.frames.length +
          (optionalFrames test).length + (optionalFrames update).length)]
  | .whileLoop test body _ =>
      simp only [Stmt.varMarks, Stmt.occurrences, List.length_append,
        test.length_varMarks frames next, body.length_varMarks frames (next + test.frames.length)]
  | .doWhile body test _ =>
      simp only [Stmt.varMarks, Stmt.occurrences, List.length_append,
        body.length_varMarks frames next, test.length_varMarks frames (next + body.frames.length)]
  | .ret arg _ =>
      simp only [Stmt.varMarks, Stmt.occurrences, length_optionalVarMarks arg frames next]
  | .throw arg _ | .expr arg _ =>
      simp only [Stmt.varMarks, Stmt.occurrences, arg.length_varMarks frames next]
  | .exitLoop _ | .nextLoop _ | .empty _ | .unsupported _ _ =>
      simp [Stmt.varMarks, Stmt.occurrences]

theorem length_alternateVarMarks (alternate : Option Stmt) (frames : List Nat) (next : Nat) :
    (alternateVarMarks alternate).length = (alternateOccurrences frames next alternate).length := by
  match alternate with
  | none => simp [alternateVarMarks, alternateOccurrences]
  | some stmt =>
      simp only [alternateVarMarks, alternateOccurrences, stmt.length_varMarks frames next]

theorem length_stmtsVarMarks (body : List Stmt) (frames : List Nat) (next : Nat) :
    (stmtsVarMarks body).length = (stmtsOccurrences frames next body).length := by
  match body with
  | [] => simp [stmtsVarMarks, stmtsOccurrences]
  | stmt :: rest =>
      simp only [stmtsVarMarks, stmtsOccurrences, List.length_append,
        stmt.length_varMarks frames next,
        length_stmtsVarMarks rest frames (next + stmt.frames.length)]

theorem length_declVarMarks (kind : DeclKind) (decls : List Declarator) (frames : List Nat)
    (next : Nat) :
    (declVarMarks kind decls).length = (declOccurrences frames next decls).length := by
  match decls with
  | [] => simp [declVarMarks, declOccurrences]
  | .mk _ init _ :: _ =>
      simp only [declVarMarks, declOccurrences, List.length_cons,
        length_optionalVarMarks init frames next]

theorem LoopInit.length_varMarks (init : LoopInit) (frames : List Nat) (next : Nat) :
    init.varMarks.length = (init.occurrences frames next).length := by
  match init with
  | .absent => simp [LoopInit.varMarks, LoopInit.occurrences]
  | .decl kind decls =>
      simp only [LoopInit.varMarks, LoopInit.occurrences,
        length_declVarMarks kind decls frames next]
  | .expr expr =>
      simp only [LoopInit.varMarks, LoopInit.occurrences, expr.length_varMarks frames next]

end

end Freshen
