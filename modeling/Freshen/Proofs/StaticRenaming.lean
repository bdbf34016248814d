import Freshen.Proofs.EnteredFrames

/-!
Renaming while writing is the same as renaming first. The first pass reads the declared names of
all frames off the tree and numbers them frame after frame; the second gives every written name
the number of the frame that binds it; the result is written with no scopes at all.
-/

namespace Freshen

section Tree

variable {table : List (List String)} {style : Style}

mutual

theorem Expr.follows (expr : Expr) {frame : Nat} {outer : List Nat} {done : List (List String)}
    {next : Nat} (tidy : expr.hasNoBareDeclaration = true) (counted : done.length = next) :
    Follows table style (frame :: outer) done expr.frames expr.steps
      (expr.renamed (Occurrence.freshName table style.separator) (frame :: outer) next).steps := by
  match expr with
  | .null _ | .bool _ _ | .number _ _ | .string _ _ | .regex _ _ _ =>
      simp only [Expr.frames, Expr.renamed, Expr.steps]
      exact Follows.text _
  | .ident name _ =>
      simp only [Expr.frames, Expr.renamed, Expr.steps]
      exact Follows.refer name
  | .array elements _ =>
      simp only [Expr.hasNoBareDeclaration] at tidy
      simp only [Expr.frames, Expr.renamed, Expr.steps]
      exact ((Follows.text _).before (elements_follow elements tidy counted)).after (Follows.text _)
  | .object properties _ =>
      simp only [Expr.hasNoBareDeclaration] at tidy
      simp only [Expr.frames, Expr.renamed, Expr.steps]
      exact ((Follows.text _).before (properties_follow properties tidy counted)).after
        (Follows.text _)
  | .function name params body _ _ =>
      simp only [Expr.hasNoBareDeclaration] at tidy
      simp only [Expr.frames, Expr.renamed, Expr.steps, functionNames, append_regroup]
      subst counted
      apply Follows.parenthesized
      apply Follows.functionFrame rfl (by simp [hoistedNames_renamed])
      · intro placed
        exact Moves.nameOpening name [] placed (by simp)
      · intro declared
        exact (lines_follow body tidy declared (by simp)).body (by simp)
  | .arrow params result _ _ =>
      simp only [Expr.hasNoBareDeclaration] at tidy
      have names : functionNames none params [] = (params.map Param.name).eraseDups := by
        simp [functionNames, hoistedNames]
      simp only [Expr.frames, Expr.renamed, Expr.steps, names]
      subst counted
      apply Follows.parenthesized
      apply Follows.framed
      intro placed opened
      rw [List.append_cons done _ result.frames] at placed ⊢
      have start : done ++ [(params.map Param.name).eraseDups] <+: table :=
        (List.prefix_append _ _).trans placed
      have second : (done ++ [(params.map Param.name).eraseDups]).length = done.length + 1 := by
        simp
      have inside : Moves style (done.length :: frame :: outer) _ _ _ _ :=
        result.follows tidy second placed (by rwa [second])
      exact ((((Moves.text _).append
        (Moves.paramsOpening params [] start List.prefix_rfl).parenthesized).append
        (Moves.text _)).append inside).append (Moves.text _)
  | .arrowBlock params body _ _ =>
      simp only [Expr.hasNoBareDeclaration] at tidy
      simp only [Expr.frames, Expr.renamed, Expr.steps, functionNames, append_regroup]
      subst counted
      apply Follows.parenthesized
      apply Follows.functionFrame rfl (by simp [hoistedNames_renamed])
      · intro placed
        exact Moves.nameOpening none [] placed (by simp)
      · intro declared
        exact (lines_follow body tidy declared (by simp)).body (by simp)
  | .unary op arg _ =>
      simp only [Expr.hasNoBareDeclaration] at tidy
      simp only [Expr.frames, Expr.renamed, Expr.steps]
      exact (Follows.text _).before (arg.follows tidy counted).parenthesized
  | .binary op left right _ =>
      simp only [Expr.hasNoBareDeclaration, Bool.and_eq_true] at tidy
      simp only [Expr.frames, Expr.renamed, Expr.steps]
      have second : (done ++ left.frames).length = next + left.frames.length := by simp [counted]
      exact ((((left.follows tidy.1 counted).asLeft op (by simp)).after (Follows.text _)).append
        (right.follows tidy.2 second)).parenthesized
  | .assign op target value _ =>
      simp only [Expr.hasNoBareDeclaration, Bool.and_eq_true] at tidy
      simp only [Expr.frames, Expr.renamed, Expr.steps]
      have second : (done ++ target.frames).length = next + target.frames.length := by
        simp [counted]
      exact (((target.follows tidy.1 counted).after (Follows.text _)).append
        (value.follows tidy.2 second)).parenthesized
  | .update op true arg _ =>
      simp only [Expr.hasNoBareDeclaration] at tidy
      simp only [Expr.frames, Expr.renamed, Expr.steps]
      exact ((Follows.text _).before (arg.follows tidy counted)).parenthesized
  | .update op false arg _ =>
      simp only [Expr.hasNoBareDeclaration] at tidy
      simp only [Expr.frames, Expr.renamed, Expr.steps]
      exact ((arg.follows tidy counted).after (Follows.text _)).parenthesized
  | .conditional test consequent alternate _ =>
      simp only [Expr.hasNoBareDeclaration, Bool.and_eq_true] at tidy
      simp only [Expr.frames, Expr.renamed, Expr.steps]
      have second : (done ++ test.frames).length = next + test.frames.length := by simp [counted]
      have third : (done ++ (test.frames ++ consequent.frames)).length =
          next + test.frames.length + consequent.frames.length := by
        simp [counted, Nat.add_assoc]
      exact (((((test.follows tidy.1.1 counted).after (Follows.text _)).append
        (consequent.follows tidy.1.2 second)).after (Follows.text _)).append
        (alternate.follows tidy.2 third)).parenthesized
  | .sequence exprs _ =>
      simp only [Expr.hasNoBareDeclaration] at tidy
      simp only [Expr.frames, Expr.renamed, Expr.steps]
      exact (exprs_follow exprs tidy counted).parenthesized
  | .member object name _ =>
      simp only [Expr.hasNoBareDeclaration] at tidy
      simp only [Expr.frames, Expr.renamed, Expr.steps]
      exact ((object.follows tidy counted).asOperand (by simp)).after (Follows.text _)
  | .index object property _ =>
      simp only [Expr.hasNoBareDeclaration, Bool.and_eq_true] at tidy
      simp only [Expr.frames, Expr.renamed, Expr.steps]
      have second : (done ++ object.frames).length = next + object.frames.length := by
        simp [counted]
      exact ((((object.follows tidy.1 counted).asOperand (by simp)).after (Follows.text _)).append
        (property.follows tidy.2 second)).after (Follows.text _)
  | .call callee args _ =>
      simp only [Expr.hasNoBareDeclaration, Bool.and_eq_true] at tidy
      simp only [Expr.frames, Expr.renamed, Expr.steps]
      have second : (done ++ callee.frames).length = next + callee.frames.length := by
        simp [counted]
      exact ((callee.follows tidy.1 counted).asOperand (by simp)).append
        (exprs_follow args tidy.2 second).parenthesized
  | .new callee args _ =>
      simp only [Expr.hasNoBareDeclaration, Bool.and_eq_true] at tidy
      simp only [Expr.frames, Expr.renamed, Expr.steps]
      have second : (done ++ callee.frames).length = next + callee.frames.length := by
        simp [counted]
      exact ((Follows.text _).before
        ((callee.follows tidy.1 counted).asConstructor (by simp))).append
          (exprs_follow args tidy.2 second).parenthesized
  | .unsupported kind span =>
      simp only [Expr.frames, Expr.renamed, Expr.steps]
      exact Follows.reject _

theorem exprs_follow (exprs : List Expr) {frame : Nat} {outer : List Nat}
    {done : List (List String)} {next : Nat}
    (tidy : exprsHaveNoBareDeclaration exprs = true) (counted : done.length = next) :
    Follows table style (frame :: outer) done (exprsFrames exprs) (exprsSteps exprs)
      (exprsSteps (renamedExprs (Occurrence.freshName table style.separator) (frame :: outer)
        next exprs)) := by
  match exprs with
  | [] =>
      simp only [exprsFrames, renamedExprs, exprsSteps]
      exact Follows.of_moves Moves.nil
  | [expr] =>
      simp only [exprsHaveNoBareDeclaration, Bool.and_true] at tidy
      simp only [exprsFrames, renamedExprs, exprsSteps, List.append_nil]
      exact expr.follows tidy counted
  | expr :: following :: rest =>
      rw [exprsHaveNoBareDeclaration, Bool.and_eq_true] at tidy
      have second : (done ++ expr.frames).length = next + expr.frames.length := by simp [counted]
      have remaining : Follows table style (frame :: outer) _ _ _ _ :=
        exprs_follow (following :: rest) tidy.2 second
      simp only [renamedExprs] at remaining
      simp only [renamedExprs, exprsSteps_cons_cons]
      exact ((expr.follows tidy.1 counted).after (Follows.text _)).append remaining

theorem optional_follows (optional : Option Expr) {frame : Nat} {outer : List Nat}
    {done : List (List String)} {next : Nat}
    (tidy : optionalHasNoBareDeclaration optional = true) (counted : done.length = next) :
    Follows table style (frame :: outer) done (optionalFrames optional)
      (optionalSteps optional)
      (optionalSteps (renamedOptional (Occurrence.freshName table style.separator)
        (frame :: outer) next optional)) := by
  match optional with
  | none => exact Follows.of_moves Moves.nil
  | some expr =>
      rw [optionalHasNoBareDeclaration] at tidy
      exact (Follows.text " ").before (expr.follows tidy counted)

theorem elements_follow (elements : List (Option Expr)) {frame : Nat} {outer : List Nat}
    {done : List (List String)} {next : Nat}
    (tidy : elementsHaveNoBareDeclaration elements = true) (counted : done.length = next) :
    Follows table style (frame :: outer) done (elementFrames elements) (elementSteps elements)
      (elementSteps (renamedElements (Occurrence.freshName table style.separator) (frame :: outer)
        next elements)) := by
  match elements with
  | [] =>
      simp only [elementFrames, renamedElements, elementSteps]
      exact Follows.of_moves Moves.nil
  | [none] =>
      simp only [elementFrames, optionalFrames, renamedElements, renamedOptional, elementSteps]
      exact Follows.text _
  | [some expr] =>
      simp only [elementsHaveNoBareDeclaration, optionalHasNoBareDeclaration, Bool.and_true] at tidy
      simp only [elementFrames, optionalFrames, renamedElements, renamedOptional, elementSteps,
        List.append_nil]
      exact expr.follows tidy counted
  | none :: second :: rest =>
      rw [elementsHaveNoBareDeclaration, Bool.and_eq_true] at tidy
      have remaining : Follows table style (frame :: outer) done _ _ _ :=
        elements_follow (second :: rest) tidy.2 counted
      simp only [renamedElements] at remaining
      rw [elementFrames]
      simp only [optionalFrames, renamedElements, renamedOptional, elementSteps_hole_cons]
      exact (Follows.text _).before remaining
  | some expr :: following :: rest =>
      rw [elementsHaveNoBareDeclaration, Bool.and_eq_true] at tidy
      have second : (done ++ expr.frames).length = next + expr.frames.length := by simp [counted]
      have remaining : Follows table style (frame :: outer) _ _ _ _ :=
        elements_follow (following :: rest) tidy.2 second
      simp only [renamedElements] at remaining
      rw [elementFrames]
      simp only [optionalFrames, renamedElements, renamedOptional, elementSteps_cons_cons]
      exact ((expr.follows tidy.1 counted).after (Follows.text _)).append remaining

theorem properties_follow (properties : List Property) {frame : Nat} {outer : List Nat}
    {done : List (List String)} {next : Nat}
    (tidy : propertiesHaveNoBareDeclaration properties = true) (counted : done.length = next) :
    Follows table style (frame :: outer) done (propertyFrames properties) (propertySteps properties)
      (propertySteps (renamedProperties (Occurrence.freshName table style.separator)
        (frame :: outer) next properties)) := by
  match properties with
  | [] =>
      simp only [propertyFrames, renamedProperties, propertySteps]
      exact Follows.of_moves Moves.nil
  | [property] =>
      simp only [propertiesHaveNoBareDeclaration, Bool.and_true] at tidy
      simp only [propertyFrames, renamedProperties, propertySteps, List.append_nil]
      exact property.follows tidy counted
  | property :: following :: rest =>
      rw [propertiesHaveNoBareDeclaration, Bool.and_eq_true] at tidy
      have second : (done ++ property.frames).length = next + property.frames.length := by
        simp [counted]
      have remaining : Follows table style (frame :: outer) _ _ _ _ :=
        properties_follow (following :: rest) tidy.2 second
      simp only [renamedProperties] at remaining
      rw [propertyFrames]
      simp only [renamedProperties, propertySteps_cons_cons]
      exact ((property.follows tidy.1 counted).after (Follows.text _)).append remaining

theorem Property.follows (property : Property) {frame : Nat} {outer : List Nat}
    {done : List (List String)} {next : Nat} (tidy : property.hasNoBareDeclaration = true)
    (counted : done.length = next) :
    Follows table style (frame :: outer) done property.frames property.steps
      (property.renamed (Occurrence.freshName table style.separator) (frame :: outer)
        next).steps := by
  match property with
  | .named name value _ =>
      simp only [Property.hasNoBareDeclaration] at tidy
      simp only [Property.frames, Property.renamed, Property.steps]
      have key : Follows table style (frame :: outer) done [] name.steps name.steps := by
        cases name <;> exact Follows.text _
      exact (key.before (Follows.text _)).before (value.follows tidy counted)
  | .computed key value _ =>
      simp only [Property.hasNoBareDeclaration, Bool.and_eq_true] at tidy
      simp only [Property.frames, Property.renamed, Property.steps]
      have second : (done ++ key.frames).length = next + key.frames.length := by simp [counted]
      exact (((Follows.text _).before (key.follows tidy.1 counted)).after (Follows.text _)).append
        (value.follows tidy.2 second)

theorem Stmt.follows (stmt : Stmt) {frame : Nat} {outer : List Nat}
    {done : List (List String)} {next : Nat} (tidy : stmt.hasNoBareDeclaration = true)
    (declared : ∀ name ∈ stmt.hoistedName, name ∈ frameNames table frame)
    (counted : done.length = next) :
    Follows table style (frame :: outer) done stmt.frames stmt.steps
      (stmt.renamed (Occurrence.freshName table style.separator) (frame :: outer)
        next).steps := by
  match stmt with
  | .var kind decls span =>
      simp only [Stmt.hasNoBareDeclaration] at tidy
      simp only [Stmt.frames, Stmt.renamed, Stmt.steps]
      exact (decls_follow kind span decls tidy declared counted).after (Follows.text _)
  | .function (some name) params body _ _ =>
      simp only [Stmt.hasNoBareDeclaration] at tidy
      simp only [Stmt.frames, Stmt.renamed, Stmt.steps, renameName, Option.map_some, functionNames]
      subst counted
      have head : Follows table style (frame :: outer) done [] (functionHead (some name)) _ :=
        (Follows.text _).before (Follows.declare (declared name rfl))
      refine head.before (Follows.declaredFunctionFrame (by simp) ?_ ?_)
      · simp [hoistedNames_renamed]
      · intro declared
        exact (lines_follow body tidy declared (by simp)).body (by simp)
  | .function none params body _ _ =>
      simp only [Stmt.hasNoBareDeclaration] at tidy
      simp only [Stmt.frames, Stmt.renamed, Stmt.steps, renameName, Option.map_none, functionNames]
      subst counted
      refine (Follows.parenthesized ?_).after (Follows.text _)
      apply Follows.functionFrame rfl (by simp [hoistedNames_renamed])
      · intro placed
        exact Moves.nameOpening none [] placed (by simp)
      · intro declared
        exact (lines_follow body tidy declared (by simp)).body (by simp)
  | .block body _ =>
      simp only [Stmt.hasNoBareDeclaration] at tidy
      simp only [Stmt.frames, Stmt.renamed, Stmt.steps]
      subst counted
      apply Follows.framed
      intro placed opened
      have declared : ∀ name ∈ hoistedNames body, name ∈ frameNames table done.length := by
        intro name member
        rwa [Follows.frameNames_opening placed, List.mem_eraseDups]
      rw [List.append_cons done _ (stmtsFrames body)] at placed ⊢
      have second : (done ++ [(hoistedNames body).eraseDups]).length = done.length + 1 := by simp
      have bounds : ∀ number ∈ done.length :: frame :: outer,
          number < (done ++ [(hoistedNames body).eraseDups]).length := by
        rwa [second]
      have inside := (lines_follow body tidy declared second).body (by simp) placed bounds
      refine (Moves.hoistOpening body (hoistedNames _) [] ?_).append inside
      rw [hoistedNames_renamed, List.length_map]
  | .cond test consequent none _ =>
      simp only [Stmt.hasNoBareDeclaration, alternateHasNoBareDeclaration, Bool.and_eq_true,
        Bool.not_eq_true'] at tidy
      simp only [Stmt.frames, alternateFrames, Stmt.renamed, renamedAlternate, Stmt.steps,
        List.append_nil]
      have second : (done ++ test.frames).length = next + test.frames.length := by simp [counted]
      have bare : ∀ name ∈ consequent.hoistedName, name ∈ frameNames table frame := by
        simp [Stmt.hoistedName_of_not_declaration tidy.1.2.1]
      exact (((Follows.text _).before (test.follows tidy.1.1 counted)).after
        (Follows.text _)).append (consequent.follows tidy.1.2.2 bare second)
  | .cond test consequent (some alternate) _ =>
      simp only [Stmt.hasNoBareDeclaration, alternateHasNoBareDeclaration, Bool.and_eq_true,
        Bool.not_eq_true'] at tidy
      simp only [Stmt.frames, alternateFrames, Stmt.renamed, renamedAlternate, Stmt.steps,
        Stmt.isBlock_renamed, List.append_assoc]
      have second : (done ++ test.frames).length = next + test.frames.length := by simp [counted]
      have third : (done ++ test.frames ++ consequent.frames).length =
          next + test.frames.length + consequent.frames.length := by
        simp [counted, Nat.add_assoc]
      have bare : ∀ name ∈ consequent.hoistedName, name ∈ frameNames table frame := by
        simp [Stmt.hoistedName_of_not_declaration tidy.1.2.1]
      have bareAlternate : ∀ name ∈ alternate.hoistedName, name ∈ frameNames table frame := by
        simp [Stmt.hoistedName_of_not_declaration tidy.2.1]
      have branch : Follows table style (frame :: outer) _ _ _ _ :=
        consequent.follows tidy.1.2.2 bare second
      have last : Follows table style (frame :: outer) _ _ _ _ :=
        (Follows.text " else ").before (alternate.follows tidy.2.2 bareAlternate third)
      refine (Follows.text _).before ((test.follows tidy.1.1 counted).append
        ((Follows.text _).before (Follows.append ?_ last)))
      split
      · exact branch
      · exact (Follows.newline.before branch).braced
  | .loop init test update body span =>
      simp only [Stmt.hasNoBareDeclaration, Bool.and_eq_true, Bool.not_eq_true'] at tidy
      subst counted
      have afterInit : (done ++ [init.names] ++ init.frames).length =
          done.length + 1 + init.frames.length := by
        rw [List.length_append, List.length_append, List.length_singleton]
      have afterTest : (done ++ [init.names] ++ init.frames ++ optionalFrames test).length =
          done.length + 1 + init.frames.length + (optionalFrames test).length := by
        rw [List.length_append, afterInit]
      have afterUpdate : (done ++ [init.names] ++ init.frames ++ optionalFrames test ++
          optionalFrames update).length = done.length + 1 + init.frames.length +
            (optionalFrames test).length + (optionalFrames update).length := by
        rw [List.length_append, afterTest]
      have bare : ∀ name ∈ body.hoistedName, name ∈ frameNames table done.length := by
        simp [Stmt.hoistedName_of_not_declaration tidy.2.1]
      rw [Stmt.renamed, Stmt.steps_loop, Stmt.steps_loop, Stmt.frames]
      apply Follows.framed
      intro placed opened
      have regroup : done ++ init.names :: (init.frames ++ optionalFrames test ++
          optionalFrames update ++ body.frames) = done ++ [init.names] ++ init.frames ++
            (optionalFrames test ++ (optionalFrames update ++ body.frames)) := by simp
      rw [regroup] at placed ⊢
      -- the head declares the one name of the frame, so the rest finds the frame complete
      have head := init.moves span tidy.1.1.1 ((List.prefix_append _ _).trans placed) opened
      have rest : Follows table style (done.length :: frame :: outer) _ _ _ _ :=
        (Follows.text ";").before ((optional_follows test tidy.1.1.2 afterInit).append
          ((Follows.text ";").before
            ((optional_follows update tidy.1.2 afterTest).append
              ((Follows.text ") ").before (body.follows tidy.2.2 bare afterUpdate)))))
      have bounds : ∀ number ∈ done.length :: frame :: outer,
          number < (done ++ [init.names] ++ init.frames).length := by
        intro number member
        have bound := opened number member
        omega
      exact (Moves.text _).append (head.append (rest placed bounds))
  | .whileLoop test body _ =>
      simp only [Stmt.hasNoBareDeclaration, Bool.and_eq_true, Bool.not_eq_true'] at tidy
      simp only [Stmt.frames, Stmt.renamed, Stmt.steps]
      have second : (done ++ test.frames).length = next + test.frames.length := by simp [counted]
      have bare : ∀ name ∈ body.hoistedName, name ∈ frameNames table frame := by
        simp [Stmt.hoistedName_of_not_declaration tidy.2.1]
      exact (((Follows.text _).before (test.follows tidy.1 counted)).after (Follows.text _)).append
        (body.follows tidy.2.2 bare second)
  | .doWhile body test _ =>
      simp only [Stmt.hasNoBareDeclaration, Bool.and_eq_true, Bool.not_eq_true'] at tidy
      simp only [Stmt.frames, Stmt.renamed, Stmt.steps]
      have second : (done ++ body.frames).length = next + body.frames.length := by simp [counted]
      have bare : ∀ name ∈ body.hoistedName, name ∈ frameNames table frame := by
        simp [Stmt.hoistedName_of_not_declaration tidy.2.1]
      exact ((((Follows.text _).before (body.follows tidy.2.2 bare counted)).after
        (Follows.text _)).append (test.follows tidy.1 second)).after (Follows.text _)
  | .exitLoop _ | .nextLoop _ | .empty _ =>
      simp only [Stmt.frames, Stmt.renamed, Stmt.steps]
      exact Follows.text _
  | .ret none _ =>
      simp only [Stmt.frames, optionalFrames, Stmt.renamed, renamedOptional, Stmt.steps]
      exact Follows.text _
  | .ret (some arg) _ =>
      simp only [Stmt.hasNoBareDeclaration, optionalHasNoBareDeclaration] at tidy
      simp only [Stmt.frames, optionalFrames, Stmt.renamed, renamedOptional, Stmt.steps]
      exact ((Follows.text _).before (arg.follows tidy counted)).after (Follows.text _)
  | .throw arg _ =>
      simp only [Stmt.hasNoBareDeclaration] at tidy
      simp only [Stmt.frames, Stmt.renamed, Stmt.steps]
      exact ((Follows.text _).before (arg.follows tidy counted)).after (Follows.text _)
  | .expr arg _ =>
      simp only [Stmt.hasNoBareDeclaration] at tidy
      simp only [Stmt.frames, Stmt.renamed, Stmt.steps]
      exact (arg.follows tidy counted).after (Follows.text _)
  | .unsupported kind span =>
      simp only [Stmt.frames, Stmt.renamed, Stmt.steps]
      exact Follows.reject _

theorem lines_follow (body : List Stmt) {frame : Nat} {outer : List Nat}
    {done : List (List String)} {next : Nat} (tidy : stmtsHaveNoBareDeclaration body = true)
    (declared : ∀ name ∈ hoistedNames body, name ∈ frameNames table frame)
    (counted : done.length = next) :
    Follows table style (frame :: outer) done (stmtsFrames body) (lineSteps body)
      (lineSteps (renamedStmts (Occurrence.freshName table style.separator) (frame :: outer) next
        body)) := by
  match body with
  | [] =>
      simp only [stmtsFrames, renamedStmts, lineSteps]
      exact Follows.of_moves Moves.nil
  | stmt :: rest =>
      simp only [stmtsHaveNoBareDeclaration, Bool.and_eq_true] at tidy
      simp only [stmtsFrames, renamedStmts, lineSteps]
      have second : (done ++ stmt.frames).length = next + stmt.frames.length := by simp [counted]
      have here : ∀ name ∈ stmt.hoistedName, name ∈ frameNames table frame := by
        intro name hoisted
        exact declared name (mem_hoistedNames.mpr ⟨stmt, List.mem_cons_self, hoisted⟩)
      have later : ∀ name ∈ hoistedNames rest, name ∈ frameNames table frame := by
        intro name member
        obtain ⟨other, inside, hoisted⟩ := mem_hoistedNames.mp member
        exact declared name (mem_hoistedNames.mpr ⟨other, List.mem_cons_of_mem _ inside, hoisted⟩)
      exact (Follows.newline.before (stmt.follows tidy.1 here counted)).append
        (lines_follow rest tidy.2 later second)

theorem LoopInit.moves (init : LoopInit) (span : Span) {frame : Nat} {outer : List Nat}
    {done : List (List String)} (tidy : init.hasNoBareDeclaration = true)
    (placed : done ++ [init.names] ++ init.frames <+: table)
    (opened : ∀ number ∈ done.length :: frame :: outer, number < done.length + 1) :
    Moves style (done.length :: frame :: outer) (bindingsFrom 0 (done ++ [[]])) (init.steps span)
      (bindingsFrom 0 (done ++ [init.names] ++ init.frames))
      ((init.renamed (Occurrence.freshName table style.separator) (done.length :: frame :: outer)
        (done.length + 1)).steps span) := by
  match init with
  | .absent =>
      simp only [LoopInit.names, LoopInit.frames, LoopInit.renamed, LoopInit.steps, List.append_nil]
      exact Moves.nil
  | .expr expr =>
      simp only [LoopInit.hasNoBareDeclaration] at tidy
      simp only [LoopInit.names, LoopInit.frames] at placed
      simp only [LoopInit.names, LoopInit.frames, LoopInit.renamed, LoopInit.steps]
      have second : (done ++ [[]]).length = done.length + 1 := by simp
      exact expr.follows tidy second placed (by rwa [second])
  | .decl kind [] =>
      simp only [LoopInit.renamed, renamedDecls, LoopInit.steps, declSteps]
      exact Moves.reject _
  | .decl kind (.mk name none _ :: _) =>
      simp only [LoopInit.names, LoopInit.frames, declFrames, optionalFrames, Declarator.name,
        List.append_nil] at placed
      simp only [LoopInit.names, LoopInit.frames, declFrames, optionalFrames, Declarator.name,
        LoopInit.renamed, renamedDecls, renamedOptional, LoopInit.steps, declSteps,
        List.append_nil]
      have start : done ++ [[name].eraseDups] <+: table := placed
      exact (Moves.text _).append (Moves.declareOpening [] name start List.prefix_rfl)
  | .decl kind (.mk name (some init) _ :: _) =>
      simp only [LoopInit.hasNoBareDeclaration, declsHaveNoBareDeclaration,
        optionalHasNoBareDeclaration] at tidy
      simp only [LoopInit.names, LoopInit.frames, declFrames, optionalFrames,
        Declarator.name] at placed
      simp only [LoopInit.names, LoopInit.frames, declFrames, optionalFrames, Declarator.name,
        LoopInit.renamed, renamedDecls, renamedOptional, LoopInit.steps, declSteps]
      have second : (done ++ [[name]]).length = done.length + 1 := by simp
      have start : done ++ [[name].eraseDups] <+: table := (List.prefix_append _ _).trans placed
      have inside := init.follows tidy second placed (by rwa [second])
      exact (((Moves.text _).append (Moves.declareOpening [] name start List.prefix_rfl)).append
        (Moves.text _)).append inside

theorem decls_follow (kind : DeclKind) (span : Span) (decls : List Declarator) {frame : Nat}
    {outer : List Nat} {done : List (List String)} {next : Nat}
    (tidy : declsHaveNoBareDeclaration decls = true)
    (declared : ∀ name ∈ decls.head?.map Declarator.name, name ∈ frameNames table frame)
    (counted : done.length = next) :
    Follows table style (frame :: outer) done (declFrames decls) (declSteps kind span decls)
      (declSteps kind span (renamedDecls (Occurrence.freshName table style.separator)
        (frame :: outer) next decls)) := by
  match decls with
  | [] =>
      simp only [declFrames, renamedDecls, declSteps]
      exact Follows.reject _
  | .mk name none _ :: _ =>
      simp only [declFrames, optionalFrames, renamedDecls, renamedOptional, declSteps]
      exact (Follows.text _).before (Follows.declare (declared name rfl))
  | .mk name (some init) _ :: _ =>
      simp only [declsHaveNoBareDeclaration, optionalHasNoBareDeclaration] at tidy
      simp only [declFrames, optionalFrames, renamedDecls, renamedOptional, declSteps]
      have head : Follows table style (frame :: outer) done [] _ _ :=
        ((Follows.text (kind.word ++ " ")).before (Follows.declare (declared name rfl))).before
          (Follows.text " = ")
      exact head.before (init.follows tidy counted)

end

theorem top_follows (body : List Stmt) {frame : Nat} {outer : List Nat}
    {done : List (List String)} {next : Nat} (tidy : stmtsHaveNoBareDeclaration body = true)
    (declared : ∀ name ∈ hoistedNames body, name ∈ frameNames table frame)
    (counted : done.length = next) :
    Follows table style (frame :: outer) done (stmtsFrames body)
      (body.flatMap fun stmt => stmt.steps ++ [.newline])
      ((renamedStmts (Occurrence.freshName table style.separator) (frame :: outer) next
        body).flatMap fun stmt => stmt.steps ++ [.newline]) := by
  induction body generalizing done next with
  | nil => exact Follows.of_moves Moves.nil
  | cons stmt rest ih =>
      rw [stmtsHaveNoBareDeclaration, Bool.and_eq_true] at tidy
      rw [stmtsFrames, renamedStmts, List.flatMap_cons, List.flatMap_cons]
      have second : (done ++ stmt.frames).length = next + stmt.frames.length := by simp [counted]
      have here : ∀ name ∈ stmt.hoistedName, name ∈ frameNames table frame := by
        intro name hoisted
        exact declared name (mem_hoistedNames.mpr ⟨stmt, List.mem_cons_self, hoisted⟩)
      have later : ∀ name ∈ hoistedNames rest, name ∈ frameNames table frame := by
        intro name member
        obtain ⟨other, inside, hoisted⟩ := mem_hoistedNames.mp member
        exact declared name (mem_hoistedNames.mpr ⟨other, List.mem_cons_of_mem _ inside, hoisted⟩)
      exact ((stmt.follows tidy.1 here counted).after Follows.newline).append
        (ih tidy.2 later second)

end Tree

theorem Program.moves (program : Program) (style : Style)
    (tidy : program.hasNoBareDeclaration = true) :
    Moves style [0] [] program.steps (bindingsFrom 0 program.frames)
      (program.staticallyRenamed style.separator).steps := by
  have declared : ∀ name ∈ hoistedNames program.body, name ∈ frameNames program.frames 0 := by
    intro name member
    simpa [frameNames, Program.frames] using member
  have same : (hoistedNames (program.staticallyRenamed style.separator).body).length =
      (hoistedNames program.body).length := by
    simp [Program.staticallyRenamed, Program.renamed, hoistedNames_renamed]
  have hoist : Moves style [0] [] (hoistSteps program.body)
      (bindingsFrom 0 [(hoistedNames program.body).eraseDups])
      (hoistSteps (program.staticallyRenamed style.separator).body) :=
    @Moves.hoistOpening style [] [] program.body _ [] same
  have inside : Follows program.frames style [0] [(hoistedNames program.body).eraseDups] _ _ _ :=
    top_follows program.body tidy declared rfl
  exact hoist.append (inside List.prefix_rfl (by simp))

theorem Program.printed_of_written {program : Program} {style : Style} {text : String}
    (tidy : program.hasNoBareDeclaration = true) (written : program.transform style = .ok text) :
    (program.staticallyRenamed style.separator).printed style = .ok text := by
  rw [Program.transform, Program.template] at written
  rcases program.moves style tidy {} Context.Records.initial with
    ⟨result, pieces, ran, printed, wrote⟩ | ⟨cause, result, ran, printed⟩
  · rw [ran] at written
    rw [Program.printed, printed, ← written]
    simp only [Except.map, wrote.output, Style.render_nil, String.empty_append]
  · rw [ran] at written
    cases written

theorem Program.printed_of_rejected {program : Program} {style : Style} {cause : Unsupported}
    (tidy : program.hasNoBareDeclaration = true)
    (rejected : program.transform style = .error cause) :
    (program.staticallyRenamed style.separator).printed style = .error cause := by
  rw [Program.transform, Program.template] at rejected
  rcases program.moves style tidy {} Context.Records.initial with
    ⟨result, pieces, ran, printed, wrote⟩ | ⟨other, result, ran, printed⟩
  · rw [ran] at rejected
    cases rejected
  · rw [ran] at rejected
    rw [Program.printed, printed, ← rejected]

/-- Renaming while writing gives the text of the program that is renamed first. -/
theorem transform_eq_printed_staticallyRenamed (program : Program) (style : Style)
    (tidy : program.hasNoBareDeclaration = true) :
    program.transform style = (program.staticallyRenamed style.separator).printed style := by
  cases outcome : program.transform style with
  | ok text => exact (Program.printed_of_written tidy outcome).symm
  | error cause => exact (Program.printed_of_rejected tidy outcome).symm

theorem transform_eq_printed_shadowed :
    let program : Program := ⟨[
      .expr (.call (.ident "f" {}) [.ident "x" {}] {}) {},
      .function (some "f") [⟨"x", {}⟩] [.ret (some (.ident "x" {})) {}] {} {},
      .block [.var .constant [.mk "x" (some (.ident "f" {})) {}] {}] {}], {}⟩
    program.hasNoBareDeclaration = true ∧
      program.transform {} = (program.staticallyRenamed "$").printed {} ∧
      (program.transform {}).toOption = some
        "f$0(x);\nfunction f$0(x$1) \x7b\n  return x$1;\n\x7d\n\x7b\n  const x$2 = f$0;\n\x7d\n" :=
  ⟨by decide, transform_eq_printed_staticallyRenamed _ {} (by decide), by decide +kernel⟩

end Freshen
