import Freshen.Proofs.MintedNames
import Freshen.Proofs.StaticRenaming
import Mathlib.Data.List.Induction

/-!
Renaming captures nothing. When the renamed program is resolved again, every reference is bound by
the frame that bound it before, and what was free is free, under the name it had.
-/

namespace Freshen

theorem eraseDups_map {f : String → String} (injective : Function.Injective f)
    (names : List String) : (names.map f).eraseDups = names.eraseDups.map f := by
  induction names using List.reverseRecOn with
  | nil => rfl
  | append_singleton names name ih =>
      rw [List.map_append, List.map_singleton, List.eraseDups_append, List.eraseDups_append, ih]
      by_cases present : name ∈ names <;>
        simp [List.removeAll, List.eraseDups_cons, injective.eq_iff, present]

/-- A renaming that gives the declared names of a frame different names, by the frame alone. -/
structure FrameRenaming where
  rename : Occurrence → String
  fresh : Nat → String → String
  declares : ∀ name frame outer, rename ⟨name, frame :: outer, true⟩ = fresh frame name
  injective : ∀ frame, Function.Injective (fresh frame)

namespace FrameRenaming

variable (scheme : FrameRenaming)

def table (first : Nat) (names : List (List String)) : List (List String) :=
  (names.zipIdx first).map fun (names, frame) => names.map (scheme.fresh frame)

@[simp] theorem table_nil (first : Nat) : scheme.table first [] = [] := rfl

@[simp] theorem table_cons (first : Nat) (names : List String) (rest : List (List String)) :
    scheme.table first (names :: rest) =
      names.map (scheme.fresh first) :: scheme.table (first + 1) rest := by
  simp [table]

@[simp] theorem table_append (first : Nat) (left right : List (List String)) :
    scheme.table first (left ++ right) =
      scheme.table first left ++ scheme.table (first + left.length) right := by
  simp [table, List.zipIdx_append]

@[simp] theorem length_table (first : Nat) (names : List (List String)) :
    (scheme.table first names).length = names.length := by
  simp [table]

theorem frameNames_table (names : List (List String)) (frame : Nat) :
    frameNames (scheme.table 0 names) frame =
      (frameNames names frame).map (scheme.fresh frame) := by
  cases present : names[frame]? <;> simp [frameNames, table, present]

theorem hoistedNames_stmts (frame : Nat) (outer : List Nat) (next : Nat) (body : List Stmt) :
    hoistedNames (renamedStmts scheme.rename (frame :: outer) next body) =
      (hoistedNames body).map (scheme.fresh frame) := by
  rw [hoistedNames_renamed]
  simp only [scheme.declares]

theorem functionNames_function (frame : Nat) (outer : List Nat) (next : Nat) (name : Option String)
    (params : List Param) (body : List Stmt) :
    functionNames (renameName scheme.rename (frame :: outer) name)
        (renameParams scheme.rename (frame :: outer) params)
        (renamedStmts scheme.rename (frame :: outer) next body) =
      (functionNames name params body).map (scheme.fresh frame) := by
  rw [functionNames, functionNames, ← eraseDups_map (scheme.injective frame),
    scheme.hoistedNames_stmts]
  cases name <;> simp [renameName, renameParams, scheme.declares, Function.comp_def]

theorem functionNames_unnamed (frame : Nat) (outer : List Nat) (next : Nat) (params : List Param)
    (body : List Stmt) :
    functionNames none (renameParams scheme.rename (frame :: outer) params)
        (renamedStmts scheme.rename (frame :: outer) next body) =
      (functionNames none params body).map (scheme.fresh frame) :=
  scheme.functionNames_function frame outer next none params body

theorem functionNames_params (frame : Nat) (outer : List Nat) (params : List Param) :
    functionNames none (renameParams scheme.rename (frame :: outer) params) [] =
      (functionNames none params []).map (scheme.fresh frame) :=
  scheme.functionNames_unnamed frame outer 0 params []

theorem names_init (frame : Nat) (outer : List Nat) (next : Nat) (init : LoopInit) :
    (init.renamed scheme.rename (frame :: outer) next).names =
      init.names.map (scheme.fresh frame) := by
  rcases init with _ | ⟨kind, _ | ⟨⟨name, value, _⟩, rest⟩⟩ | _ <;>
    simp [LoopInit.renamed, renamedDecls, LoopInit.names, Declarator.name, scheme.declares]

end FrameRenaming

section Renamed

variable (scheme : FrameRenaming)

mutual

theorem Expr.frames_renamed (expr : Expr) (frames : List Nat) (next : Nat) :
    (expr.renamed scheme.rename frames next).frames = scheme.table next expr.frames := by
  match expr with
  | .null _ | .bool _ _ | .number _ _ | .string _ _ | .regex _ _ _ | .ident _ _
  | .unsupported _ _ => simp only [Expr.renamed, Expr.frames, scheme.table_nil]
  | .array elements _ => simp only [Expr.renamed, Expr.frames, elementFrames_renamed elements]
  | .object properties _ =>
      simp only [Expr.renamed, Expr.frames, propertyFrames_renamed properties]
  | .function name params body _ _ =>
      simp only [Expr.renamed, Expr.frames, scheme.functionNames_function, stmtsFrames_renamed body,
        scheme.table_cons]
  | .arrow params result _ _ =>
      simp only [Expr.renamed, Expr.frames, result.frames_renamed, scheme.table_cons,
        scheme.functionNames_params]
  | .arrowBlock params body _ _ =>
      simp only [Expr.renamed, Expr.frames, stmtsFrames_renamed body, scheme.table_cons,
        scheme.functionNames_unnamed]
  | .unary _ arg _ | .update _ _ arg _ | .member arg _ _ =>
      simp only [Expr.renamed, Expr.frames, arg.frames_renamed]
  | .binary _ left right _ | .assign _ left right _ | .index left right _ =>
      simp only [Expr.renamed, Expr.frames, left.frames_renamed, right.frames_renamed,
        scheme.table_append]
  | .conditional test consequent alternate _ =>
      simp only [Expr.renamed, Expr.frames, test.frames_renamed, consequent.frames_renamed,
        alternate.frames_renamed, scheme.table_append, List.length_append, Nat.add_assoc]
  | .sequence exprs _ => simp only [Expr.renamed, Expr.frames, exprsFrames_renamed exprs]
  | .call callee args _ | .new callee args _ =>
      simp only [Expr.renamed, Expr.frames, callee.frames_renamed, exprsFrames_renamed args,
        scheme.table_append]

theorem exprsFrames_renamed (exprs : List Expr) (frames : List Nat) (next : Nat) :
    exprsFrames (renamedExprs scheme.rename frames next exprs) =
      scheme.table next (exprsFrames exprs) := by
  match exprs with
  | [] => simp only [renamedExprs, exprsFrames, scheme.table_nil]
  | expr :: rest =>
      simp only [renamedExprs, exprsFrames, expr.frames_renamed, exprsFrames_renamed rest,
        scheme.table_append]

theorem optionalFrames_renamed (optional : Option Expr) (frames : List Nat) (next : Nat) :
    optionalFrames (renamedOptional scheme.rename frames next optional) =
      scheme.table next (optionalFrames optional) := by
  match optional with
  | none => simp only [renamedOptional, optionalFrames, scheme.table_nil]
  | some expr => simp only [renamedOptional, optionalFrames, expr.frames_renamed]

theorem elementFrames_renamed (elements : List (Option Expr)) (frames : List Nat) (next : Nat) :
    elementFrames (renamedElements scheme.rename frames next elements) =
      scheme.table next (elementFrames elements) := by
  match elements with
  | [] => simp only [renamedElements, elementFrames, scheme.table_nil]
  | element :: rest =>
      simp only [renamedElements, elementFrames, optionalFrames_renamed element,
        elementFrames_renamed rest, scheme.table_append]

theorem propertyFrames_renamed (properties : List Property) (frames : List Nat) (next : Nat) :
    propertyFrames (renamedProperties scheme.rename frames next properties) =
      scheme.table next (propertyFrames properties) := by
  match properties with
  | [] => simp only [renamedProperties, propertyFrames, scheme.table_nil]
  | property :: rest =>
      simp only [renamedProperties, propertyFrames, property.frames_renamed,
        propertyFrames_renamed rest, scheme.table_append]

theorem Property.frames_renamed (property : Property) (frames : List Nat) (next : Nat) :
    (property.renamed scheme.rename frames next).frames = scheme.table next property.frames := by
  match property with
  | .named _ value _ => simp only [Property.renamed, Property.frames, value.frames_renamed]
  | .computed key value _ =>
      simp only [Property.renamed, Property.frames, key.frames_renamed, value.frames_renamed,
        scheme.table_append]

theorem Stmt.frames_renamed (stmt : Stmt) (frames : List Nat) (next : Nat) :
    (stmt.renamed scheme.rename frames next).frames = scheme.table next stmt.frames := by
  match stmt with
  | .var _ decls _ => simp only [Stmt.renamed, Stmt.frames, declFrames_renamed decls]
  | .function _ params body _ _ =>
      simp only [Stmt.renamed, Stmt.frames, stmtsFrames_renamed body, scheme.table_cons,
        scheme.functionNames_unnamed]
  | .block body _ =>
      simp only [Stmt.renamed, Stmt.frames, scheme.hoistedNames_stmts,
        eraseDups_map (scheme.injective next), stmtsFrames_renamed body, scheme.table_cons]
  | .cond test consequent alternate _ =>
      simp only [Stmt.renamed, Stmt.frames, test.frames_renamed, consequent.frames_renamed,
        alternateFrames_renamed alternate, scheme.table_append, List.length_append, Nat.add_assoc]
  | .loop init test update body _ =>
      simp only [Stmt.renamed, Stmt.frames, scheme.names_init, init.frames_renamed,
        optionalFrames_renamed test, optionalFrames_renamed update, body.frames_renamed,
        scheme.table_cons, scheme.table_append, List.length_append, Nat.add_assoc]
  | .whileLoop test body _ | .doWhile body test _ =>
      simp only [Stmt.renamed, Stmt.frames, test.frames_renamed, body.frames_renamed,
        scheme.table_append]
  | .ret arg _ => simp only [Stmt.renamed, Stmt.frames, optionalFrames_renamed arg]
  | .throw arg _ | .expr arg _ => simp only [Stmt.renamed, Stmt.frames, arg.frames_renamed]
  | .exitLoop _ | .nextLoop _ | .empty _ | .unsupported _ _ =>
      simp only [Stmt.renamed, Stmt.frames, scheme.table_nil]

theorem alternateFrames_renamed (alternate : Option Stmt) (frames : List Nat) (next : Nat) :
    alternateFrames (renamedAlternate scheme.rename frames next alternate) =
      scheme.table next (alternateFrames alternate) := by
  match alternate with
  | none => simp only [renamedAlternate, alternateFrames, scheme.table_nil]
  | some stmt => simp only [renamedAlternate, alternateFrames, stmt.frames_renamed]

theorem stmtsFrames_renamed (body : List Stmt) (frames : List Nat) (next : Nat) :
    stmtsFrames (renamedStmts scheme.rename frames next body) =
      scheme.table next (stmtsFrames body) := by
  match body with
  | [] => simp only [renamedStmts, stmtsFrames, scheme.table_nil]
  | stmt :: rest =>
      simp only [renamedStmts, stmtsFrames, stmt.frames_renamed, stmtsFrames_renamed rest,
        scheme.table_append]

theorem declFrames_renamed (decls : List Declarator) (frames : List Nat) (next : Nat) :
    declFrames (renamedDecls scheme.rename frames next decls) =
      scheme.table next (declFrames decls) := by
  match decls with
  | [] => simp only [renamedDecls, declFrames, scheme.table_nil]
  | .mk _ init _ :: _ => simp only [renamedDecls, declFrames, optionalFrames_renamed init]

theorem LoopInit.frames_renamed (init : LoopInit) (frames : List Nat) (next : Nat) :
    (init.renamed scheme.rename frames next).frames = scheme.table next init.frames := by
  match init with
  | .absent => simp only [LoopInit.renamed, LoopInit.frames, scheme.table_nil]
  | .decl _ decls => simp only [LoopInit.renamed, LoopInit.frames, declFrames_renamed decls]
  | .expr expr => simp only [LoopInit.renamed, LoopInit.frames, expr.frames_renamed]

end

def FrameRenaming.apply (occurrence : Occurrence) : Occurrence :=
  { occurrence with name := scheme.rename occurrence }

theorem paramOccurrences_renamed (frames : List Nat) (params : List Param) :
    paramOccurrences frames (renameParams scheme.rename frames params) =
      (paramOccurrences frames params).map scheme.apply := by
  simp [paramOccurrences, renameParams, FrameRenaming.apply, Function.comp_def]

theorem nameOccurrences_renamed (frames : List Nat) (name : Option String) :
    nameOccurrences frames (renameName scheme.rename frames name) =
      (nameOccurrences frames name).map scheme.apply := by
  cases name <;> simp [nameOccurrences, renameName, FrameRenaming.apply]

mutual

theorem Expr.occurrences_renamed (expr : Expr) (frames : List Nat) (next : Nat) :
    (expr.renamed scheme.rename frames next).occurrences frames next =
      (expr.occurrences frames next).map scheme.apply := by
  match expr with
  | .null _ | .bool _ _ | .number _ _ | .string _ _ | .regex _ _ _ | .unsupported _ _ =>
      simp only [Expr.renamed, Expr.occurrences, List.map_nil]
  | .ident name _ =>
      simp only [Expr.renamed, Expr.occurrences, List.map_singleton, FrameRenaming.apply]
  | .array elements _ =>
      simp only [Expr.renamed, Expr.occurrences, elementOccurrences_renamed elements]
  | .object properties _ =>
      simp only [Expr.renamed, Expr.occurrences, propertyOccurrences_renamed properties]
  | .function name params body _ _ =>
      simp only [Expr.renamed, Expr.occurrences, nameOccurrences_renamed, paramOccurrences_renamed,
        stmtsOccurrences_renamed body, List.map_append]
  | .arrow params result _ _ =>
      simp only [Expr.renamed, Expr.occurrences, paramOccurrences_renamed,
        result.occurrences_renamed, List.map_append]
  | .arrowBlock params body _ _ =>
      simp only [Expr.renamed, Expr.occurrences, paramOccurrences_renamed,
        stmtsOccurrences_renamed body, List.map_append]
  | .unary _ arg _ | .update _ _ arg _ | .member arg _ _ =>
      simp only [Expr.renamed, Expr.occurrences, arg.occurrences_renamed]
  | .binary _ left right _ | .assign _ left right _ | .index left right _ =>
      simp only [Expr.renamed, Expr.occurrences, left.occurrences_renamed,
        right.occurrences_renamed, left.frames_renamed, scheme.length_table, List.map_append]
  | .conditional test consequent alternate _ =>
      simp only [Expr.renamed, Expr.occurrences, test.occurrences_renamed,
        consequent.occurrences_renamed, alternate.occurrences_renamed, test.frames_renamed,
        consequent.frames_renamed, scheme.length_table, List.map_append]
  | .sequence exprs _ => simp only [Expr.renamed, Expr.occurrences, exprsOccurrences_renamed exprs]
  | .call callee args _ | .new callee args _ =>
      simp only [Expr.renamed, Expr.occurrences, callee.occurrences_renamed,
        exprsOccurrences_renamed args, callee.frames_renamed, scheme.length_table, List.map_append]

theorem exprsOccurrences_renamed (exprs : List Expr) (frames : List Nat) (next : Nat) :
    exprsOccurrences frames next (renamedExprs scheme.rename frames next exprs) =
      (exprsOccurrences frames next exprs).map scheme.apply := by
  match exprs with
  | [] => simp only [renamedExprs, exprsOccurrences, List.map_nil]
  | expr :: rest =>
      simp only [renamedExprs, exprsOccurrences, expr.occurrences_renamed,
        exprsOccurrences_renamed rest, expr.frames_renamed, scheme.length_table, List.map_append]

theorem optionalOccurrences_renamed (optional : Option Expr) (frames : List Nat) (next : Nat) :
    optionalOccurrences frames next (renamedOptional scheme.rename frames next optional) =
      (optionalOccurrences frames next optional).map scheme.apply := by
  match optional with
  | none => simp only [renamedOptional, optionalOccurrences, List.map_nil]
  | some expr => simp only [renamedOptional, optionalOccurrences, expr.occurrences_renamed]

theorem elementOccurrences_renamed (elements : List (Option Expr)) (frames : List Nat)
    (next : Nat) :
    elementOccurrences frames next (renamedElements scheme.rename frames next elements) =
      (elementOccurrences frames next elements).map scheme.apply := by
  match elements with
  | [] => simp only [renamedElements, elementOccurrences, List.map_nil]
  | element :: rest =>
      simp only [renamedElements, elementOccurrences, optionalOccurrences_renamed element,
        elementOccurrences_renamed rest, optionalFrames_renamed, scheme.length_table,
        List.map_append]

theorem propertyOccurrences_renamed (properties : List Property) (frames : List Nat)
    (next : Nat) :
    propertyOccurrences frames next (renamedProperties scheme.rename frames next properties) =
      (propertyOccurrences frames next properties).map scheme.apply := by
  match properties with
  | [] => simp only [renamedProperties, propertyOccurrences, List.map_nil]
  | property :: rest =>
      simp only [renamedProperties, propertyOccurrences, property.occurrences_renamed,
        propertyOccurrences_renamed rest, property.frames_renamed, scheme.length_table,
        List.map_append]

theorem Property.occurrences_renamed (property : Property) (frames : List Nat) (next : Nat) :
    (property.renamed scheme.rename frames next).occurrences frames next =
      (property.occurrences frames next).map scheme.apply := by
  match property with
  | .named _ value _ =>
      simp only [Property.renamed, Property.occurrences, value.occurrences_renamed]
  | .computed key value _ =>
      simp only [Property.renamed, Property.occurrences, key.occurrences_renamed,
        value.occurrences_renamed, key.frames_renamed, scheme.length_table, List.map_append]

theorem Stmt.occurrences_renamed (stmt : Stmt) (frames : List Nat) (next : Nat) :
    (stmt.renamed scheme.rename frames next).occurrences frames next =
      (stmt.occurrences frames next).map scheme.apply := by
  match stmt with
  | .var _ decls _ => simp only [Stmt.renamed, Stmt.occurrences, declOccurrences_renamed decls]
  | .function _ params body _ _ =>
      simp only [Stmt.renamed, Stmt.occurrences, nameOccurrences_renamed, paramOccurrences_renamed,
        stmtsOccurrences_renamed body, List.map_append]
  | .block body _ => simp only [Stmt.renamed, Stmt.occurrences, stmtsOccurrences_renamed body]
  | .cond test consequent alternate _ =>
      simp only [Stmt.renamed, Stmt.occurrences, test.occurrences_renamed,
        consequent.occurrences_renamed, alternateOccurrences_renamed alternate,
        test.frames_renamed, consequent.frames_renamed, scheme.length_table, List.map_append]
  | .loop init test update body _ =>
      simp only [Stmt.renamed, Stmt.occurrences, init.occurrences_renamed,
        optionalOccurrences_renamed test, optionalOccurrences_renamed update,
        body.occurrences_renamed, init.frames_renamed, optionalFrames_renamed, scheme.length_table,
        List.map_append]
  | .whileLoop test body _ | .doWhile body test _ =>
      simp only [Stmt.renamed, Stmt.occurrences, test.occurrences_renamed,
        body.occurrences_renamed, test.frames_renamed, body.frames_renamed, scheme.length_table,
        List.map_append]
  | .ret arg _ => simp only [Stmt.renamed, Stmt.occurrences, optionalOccurrences_renamed arg]
  | .throw arg _ | .expr arg _ =>
      simp only [Stmt.renamed, Stmt.occurrences, arg.occurrences_renamed]
  | .exitLoop _ | .nextLoop _ | .empty _ | .unsupported _ _ =>
      simp only [Stmt.renamed, Stmt.occurrences, List.map_nil]

theorem alternateOccurrences_renamed (alternate : Option Stmt) (frames : List Nat) (next : Nat) :
    alternateOccurrences frames next (renamedAlternate scheme.rename frames next alternate) =
      (alternateOccurrences frames next alternate).map scheme.apply := by
  match alternate with
  | none => simp only [renamedAlternate, alternateOccurrences, List.map_nil]
  | some stmt => simp only [renamedAlternate, alternateOccurrences, stmt.occurrences_renamed]

theorem stmtsOccurrences_renamed (body : List Stmt) (frames : List Nat) (next : Nat) :
    stmtsOccurrences frames next (renamedStmts scheme.rename frames next body) =
      (stmtsOccurrences frames next body).map scheme.apply := by
  match body with
  | [] => simp only [renamedStmts, stmtsOccurrences, List.map_nil]
  | stmt :: rest =>
      simp only [renamedStmts, stmtsOccurrences, stmt.occurrences_renamed,
        stmtsOccurrences_renamed rest, stmt.frames_renamed, scheme.length_table, List.map_append]

theorem declOccurrences_renamed (decls : List Declarator) (frames : List Nat) (next : Nat) :
    declOccurrences frames next (renamedDecls scheme.rename frames next decls) =
      (declOccurrences frames next decls).map scheme.apply := by
  match decls with
  | [] => simp only [renamedDecls, declOccurrences, List.map_nil]
  | .mk _ init _ :: _ =>
      simp only [renamedDecls, declOccurrences, optionalOccurrences_renamed init, List.map_cons,
        FrameRenaming.apply]

theorem LoopInit.occurrences_renamed (init : LoopInit) (frames : List Nat) (next : Nat) :
    (init.renamed scheme.rename frames next).occurrences frames next =
      (init.occurrences frames next).map scheme.apply := by
  match init with
  | .absent => simp only [LoopInit.renamed, LoopInit.occurrences, List.map_nil]
  | .decl _ decls =>
      simp only [LoopInit.renamed, LoopInit.occurrences, declOccurrences_renamed decls]
  | .expr expr => simp only [LoopInit.renamed, LoopInit.occurrences, expr.occurrences_renamed]

end

theorem Program.frames_renamed (program : Program) :
    (program.renamed scheme.rename).frames = scheme.table 0 program.frames := by
  simp only [Program.renamed, Program.frames, scheme.hoistedNames_stmts,
    eraseDups_map (scheme.injective 0), stmtsFrames_renamed, scheme.table_cons]

theorem Program.occurrences_renamed (program : Program) :
    (program.renamed scheme.rename).occurrences = program.occurrences.map scheme.apply :=
  stmtsOccurrences_renamed scheme program.body [0] 1

end Renamed

theorem counter_inj {table : List (List String)} {frame other : Nat} {name : String}
    (declared : name ∈ frameNames table frame) (again : name ∈ frameNames table other)
    (same : counter table frame name = counter table other name) : frame = other := by
  have member : (0 + frame, name) ∈ bindingsFrom 0 table := by
    simpa [mem_bindingsFrom] using declared
  rw [← idxOf_bindingsFrom 0 declared, ← idxOf_bindingsFrom 0 again] at same
  have bindings := (List.idxOf_inj member).mp same
  simpa using bindings

/-- The renaming that numbers all bindings, for a separator that is not made of digits alone. -/
def numbering (table : List (List String)) {separator : String}
    (mixed : ∃ c ∈ separator.toList, c.isDigit = false) : FrameRenaming where
  rename := Occurrence.freshName table separator
  fresh frame name := (Minted.mk name (counter table frame name)).text separator
  declares _ _ _ := rfl
  injective := by
    intro frame first second same
    exact congrArg Minted.base (Minted.text_injective mixed same)

section Numbering

variable {table : List (List String)} {separator : String}
  (mixed : ∃ c ∈ separator.toList, c.isDigit = false)

/-- The new name of a binding is declared in the frame of the binding, and nowhere else. -/
theorem fresh_mem_table_iff {frame other : Nat} {name : String}
    (declared : name ∈ frameNames table frame) :
    (numbering table mixed).fresh frame name ∈
        frameNames ((numbering table mixed).table 0 table) other ↔ other = frame := by
  rw [FrameRenaming.frameNames_table]
  constructor
  · intro member
    obtain ⟨second, again, same⟩ := List.mem_map.mp member
    have minted := Minted.text_injective mixed same
    obtain rfl : second = name := congrArg Minted.base minted
    exact counter_inj again declared (congrArg Minted.index minted)
  · rintro rfl
    exact List.mem_map_of_mem declared

theorem not_mem_table_of_apart {name : String} (apart : ¬ separator.toList <:+: name.toList)
    (frame : Nat) : name ∉ frameNames ((numbering table mixed).table 0 table) frame := by
  rw [FrameRenaming.frameNames_table]
  intro member
  obtain ⟨base, _, rfl⟩ := List.mem_map.mp member
  exact apart (Minted.separator_infix_text separator _)

theorem binder_apply (occurrence : Occurrence)
    (apart : occurrence.binder table = none → ¬ separator.toList <:+: occurrence.name.toList) :
    ((numbering table mixed).apply occurrence).binder ((numbering table mixed).table 0 table) =
      occurrence.binder table := by
  obtain ⟨name, frames, declares⟩ := occurrence
  cases declares with
  | true => rfl
  | false =>
      cases bound : (Occurrence.mk name frames false).binder table with
      | none =>
          have kept : (numbering table mixed).rename ⟨name, frames, false⟩ = name := by
            simp only [numbering, Occurrence.freshName, bound]
          simp only [FrameRenaming.apply, kept, Occurrence.binder]
          simpa using fun frame _ => not_mem_table_of_apart mixed (apart bound) frame
      | some frame =>
          have fresh : (numbering table mixed).rename ⟨name, frames, false⟩ =
              (numbering table mixed).fresh frame name := by
            simp only [numbering, Occurrence.freshName, bound]
          have found : frames.find? (fun frame => name ∈ frameNames table frame) = some frame :=
            bound
          have declared : name ∈ frameNames table frame := by simpa using List.find?_some found
          have around : frame ∈ frames := List.mem_of_find?_eq_some found
          simp only [FrameRenaming.apply, fresh, Occurrence.binder,
            fresh_mem_table_iff mixed declared]
          -- only `frame` itself declares the new name, so it does not matter how far in it is
          cases again : frames.find? fun other => decide (other = frame) with
          | none => simpa using List.find?_eq_none.mp again frame around
          | some other => simpa using List.find?_some again

end Numbering

theorem Program.staticallyRenamed_eq (program : Program) {separator : String}
    (mixed : ∃ c ∈ separator.toList, c.isDigit = false) :
    program.staticallyRenamed separator = program.renamed (numbering program.frames mixed).rename :=
  rfl

/-- Resolving the renamed program binds every reference by the frame that binds it in the program
itself. A free reference stays free and keeps its name, which no frame declares. -/
theorem renamed_references_keep_binders (program : Program) (style : Style)
    (tidy : program.hasNoBareDeclaration = true) (valid : separatorFault? style.separator = none)
    (apart : ∀ use ∈ program.occurrences, use.binder program.frames = none →
      ¬ style.separator.toList <:+: use.name.toList) :
    let renamed := program.staticallyRenamed style.separator
    (∀ text, program.transform style = .ok text → renamed.printed style = .ok text) ∧
      List.Forall₂
        (fun before after => after.frames = before.frames ∧ after.declares = before.declares ∧
          after.binder renamed.frames = before.binder program.frames ∧
          (before.binder program.frames = none → after.name = before.name))
        program.occurrences renamed.occurrences ∧
      ∀ use ∈ program.occurrences, use.binder program.frames = none →
        ∀ frame, use.name ∉ frameNames renamed.frames frame := by
  have mixed := exists_nonDigit_of_valid valid
  intro renamed
  have frames : renamed.frames = (numbering program.frames mixed).table 0 program.frames := by
    rw [← Program.frames_renamed, ← program.staticallyRenamed_eq mixed]
  have occurrences : renamed.occurrences =
      program.occurrences.map (numbering program.frames mixed).apply := by
    rw [← Program.occurrences_renamed, ← program.staticallyRenamed_eq mixed]
  refine ⟨fun text written => Program.printed_of_written tidy written, ?_, ?_⟩
  · rw [occurrences, frames, List.forall₂_map_right_iff, List.forall₂_same]
    intro use member
    refine ⟨rfl, rfl, binder_apply mixed use (apart use member), ?_⟩
    intro free
    simp only [FrameRenaming.apply, numbering, Occurrence.freshName, free]
  · intro use member free frame
    rw [frames]
    exact not_mem_table_of_apart mixed (apart use member free) frame

theorem renamed_references_keep_binders_numbered :
    let program : Program := ⟨[
      .var .lexical [.mk "a$0" (some (.ident "a" {})) {}] {},
      .block [.function (some "a") [⟨"a$0", {}⟩] [
        .ret (some (.call (.ident "a" {}) [.ident "a$0" {}, .ident "b" {}] {})) {}] {} {}] {}], {}⟩
    let renamed := program.staticallyRenamed "$"
    (program.hasNoBareDeclaration = true ∧ separatorFault? "$" = none ∧
      ∀ use ∈ program.occurrences, use.binder program.frames = none →
        ¬ "$".toList <:+: use.name.toList) ∧
      (∀ text, program.transform {} = .ok text → renamed.printed {} = .ok text) ∧
      List.Forall₂
        (fun before after => after.frames = before.frames ∧ after.declares = before.declares ∧
          after.binder renamed.frames = before.binder program.frames ∧
          (before.binder program.frames = none → after.name = before.name))
        program.occurrences renamed.occurrences ∧
      ∀ use ∈ program.occurrences, use.binder program.frames = none →
        ∀ frame, use.name ∉ frameNames renamed.frames frame :=
  ⟨⟨by decide, by decide, by decide +kernel⟩,
    renamed_references_keep_binders _ {} (by decide) (by decide) (by decide +kernel)⟩

end Freshen
