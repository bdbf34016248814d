import Freshen.Proofs.MintedNames
import Freshen.Proofs.StaticRenaming
import Freshen.Proofs.Trace

/-!
The declaration sites of a program and the names written there. Sites of one frame that declare one
name share the name they write, all other sites differ, and no number is left out.
-/

namespace Freshen

/-- The steps open `width` frames and write the given names; what they hoist they also write. -/
structure Traced (frames : List Nat) (next : Nat) (steps : List Step) (width : Nat)
    (occurrences : List Occurrence) : Prop where
  width : Step.widthAll steps = width
  written : ((Step.eventsAll frames next steps).filter Event.written).map Event.occurrence =
    occurrences
  covered : ∀ event ∈ Step.eventsAll frames next steps, event.occurrence ∈ occurrences

namespace Traced

variable {frames : List Nat} {next first second : Nat} {steps more : List Step}
  {occurrences others : List Occurrence}

theorem nil : Traced frames next [] 0 [] where
  width := rfl
  written := rfl
  covered := by simp [Step.eventsAll]

theorem append (left : Traced frames next steps first occurrences)
    (right : Traced frames (next + first) more second others) :
    Traced frames next (steps ++ more) (first + second) (occurrences ++ others) where
  width := by rw [Step.widthAll_append, left.width, right.width]
  written := by
    rw [Step.eventsAll_append, left.width, List.filter_append, List.map_append, left.written,
      right.written]
  covered := by
    intro event member
    rw [Step.eventsAll_append, left.width] at member
    rcases List.mem_append.mp member with member | member
    · exact List.mem_append_left _ (left.covered event member)
    · exact List.mem_append_right _ (right.covered event member)

theorem text (content : String) : Traced frames next [.text content] 0 [] where
  width := rfl
  written := rfl
  covered := by simp [Step.eventsAll, Step.events]

theorem newline : Traced frames next [.newline] 0 [] where
  width := rfl
  written := rfl
  covered := by simp [Step.eventsAll, Step.events]

theorem reject (cause : Unsupported) : Traced frames next [.reject cause] 0 [] where
  width := rfl
  written := rfl
  covered := by simp [Step.eventsAll, Step.events]

theorem refer (name : String) : Traced frames next [.refer name] 0 [⟨name, frames, false⟩] where
  width := rfl
  written := rfl
  covered := by simp [Step.eventsAll, Step.events]

theorem declare (name : String) : Traced frames next [.declare name] 0 [⟨name, frames, true⟩] where
  width := rfl
  written := rfl
  covered := by simp [Step.eventsAll, Step.events]

theorem before (start : Traced frames next steps 0 [])
    (rest : Traced frames next more second others) :
    Traced frames next (steps ++ more) second others := by
  simpa using start.append rest

theorem after (start : Traced frames next steps first occurrences)
    (rest : Traced frames (next + first) more 0 []) :
    Traced frames next (steps ++ more) first occurrences := by
  simpa using start.append rest

theorem placed {other : Nat} (traced : Traced frames next steps first occurrences)
    (same : next = other) : Traced frames other steps first occurrences := by
  rwa [← same]

theorem parenthesized (inside : Traced frames next steps first occurrences) :
    Traced frames next (Freshen.parenthesized steps) first occurrences :=
  ((text "(").before inside).after (text ")")

theorem braced (inside : Traced frames next steps first occurrences) :
    Traced frames next [.braced steps] first occurrences where
  width := by simpa [Step.widthAll, Step.width] using inside.width
  written := by simpa [Step.eventsAll, Step.events] using inside.written
  covered := by simpa [Step.eventsAll, Step.events] using inside.covered

theorem framed (inside : Traced (next :: frames) (next + 1) steps first occurrences) :
    Traced frames next [.framed steps] (first + 1) occurrences where
  width := by simpa [Step.widthAll, Step.width] using inside.width
  written := by simpa [Step.eventsAll, Step.events] using inside.written
  covered := by simpa [Step.eventsAll, Step.events] using inside.covered

theorem hoist {body : List Stmt}
    (declared : ∀ name ∈ hoistedNames body, ⟨name, frames, true⟩ ∈ occurrences)
    (rest : Traced frames next steps first occurrences) :
    Traced frames next (hoistSteps body ++ steps) first occurrences := by
  rw [hoistSteps, ← hoistedNames]
  generalize hoistedNames body = names at declared
  induction names with
  | nil => exact rest
  | cons name names ih =>
      have tail := ih fun other member => declared other (List.mem_cons_of_mem _ member)
      exact {
        width := by simpa [Step.widthAll, Step.width] using tail.width
        written := by simpa [Step.eventsAll, Step.events, Step.width] using tail.written
        covered := by
          intro event member
          simp only [List.map_cons, List.cons_append, Step.eventsAll, Step.events, Step.width,
            List.mem_cons, Nat.add_zero, List.nil_append] at member
          rcases member with rfl | member
          · exact declared name List.mem_cons_self
          · exact tail.covered event member }

theorem asOperand {expr : Expr} (inside : Traced frames next steps first occurrences) :
    Traced frames next (expr.asOperand steps) first occurrences := by
  rw [Expr.asOperand]
  split
  · exact inside
  · exact inside.parenthesized

theorem asConstructor {expr : Expr} (inside : Traced frames next steps first occurrences) :
    Traced frames next (expr.asConstructor steps) first occurrences := by
  rw [Expr.asConstructor]
  split
  · exact inside
  · exact inside.parenthesized

theorem asLeft {expr : Expr} {op : BinaryOp} (inside : Traced frames next steps first occurrences) :
    Traced frames next (expr.asLeft op steps) first occurrences := by
  rw [Expr.asLeft]
  split
  · exact inside.parenthesized
  · exact inside

theorem params (params : List Param) :
    Traced frames next (paramSteps params) 0 (paramOccurrences frames params) := by
  match params with
  | [] => exact nil
  | [param] => exact declare param.name
  | param :: second :: rest =>
      rw [paramSteps_cons_cons]
      exact ((declare param.name).after (text ", ")).append (Traced.params (second :: rest))

theorem functionHead (name : Option String) :
    Traced frames next (Freshen.functionHead name) 0 (nameOccurrences frames name) := by
  cases name with
  | none => exact text _
  | some name => exact (text _).before (declare name)

theorem body {stmts : List Stmt} (lines : Traced frames next (lineSteps stmts) first occurrences)
    (declared : ∀ name ∈ hoistedNames stmts, ⟨name, frames, true⟩ ∈ occurrences) :
    Traced frames next (hoistSteps stmts ++ bodySteps stmts) first occurrences := by
  apply Traced.hoist declared
  rw [bodySteps_eq]
  cases stmts with
  | nil => exact lines.after (text _)
  | cons stmt rest => exact lines.braced

theorem functionRest {stmts : List Stmt} (list : List Param)
    (lines : Traced frames next (lineSteps stmts) first occurrences)
    (declared : ∀ name ∈ hoistedNames stmts, ⟨name, frames, true⟩ ∈ occurrences) :
    Traced frames next (Freshen.parenthesized (paramSteps list) ++ ([.text " "] ++
      (hoistSteps stmts ++ bodySteps stmts))) first
      (paramOccurrences frames list ++ occurrences) := by
  have whole := (params list).parenthesized.append ((text " ").before (lines.body declared))
  rwa [Nat.zero_add] at whole

end Traced

theorem Stmt.hoistedName_written {stmt : Stmt} {name : String}
    (hoisted : stmt.hoistedName = some name) (frames : List Nat) (next : Nat) :
    ⟨name, frames, true⟩ ∈ stmt.occurrences frames next := by
  cases stmt with
  | var kind decls span =>
      rcases decls with _ | ⟨⟨first, init, _⟩, rest⟩
      · cases hoisted
      · cases hoisted
        simp [Stmt.occurrences, declOccurrences, Declarator.name]
  | function label params body inner span =>
      cases hoisted
      simp [Stmt.occurrences, nameOccurrences]
  | _ => cases hoisted

theorem hoistedNames_written {body : List Stmt} {name : String} (hoisted : name ∈ hoistedNames body)
    (frames : List Nat) (next : Nat) :
    ⟨name, frames, true⟩ ∈ stmtsOccurrences frames next body := by
  induction body generalizing next with
  | nil => simp [hoistedNames] at hoisted
  | cons stmt rest ih =>
      obtain ⟨other, member, named⟩ := mem_hoistedNames.mp hoisted
      rw [stmtsOccurrences]
      rcases List.mem_cons.mp member with rfl | member
      · exact List.mem_append_left _ (Stmt.hoistedName_written named frames next)
      · exact List.mem_append_right _ (ih (mem_hoistedNames.mpr ⟨other, member, named⟩) _)

mutual

theorem Expr.traced (expr : Expr) (frames : List Nat) (next : Nat) :
    Traced frames next expr.steps expr.frames.length (expr.occurrences frames next) := by
  match expr with
  | .null _ | .bool _ _ | .number _ _ | .string _ _ | .regex _ _ _ =>
      simp only [Expr.steps, Expr.frames, Expr.occurrences]
      exact Traced.text _
  | .ident name _ =>
      simp only [Expr.steps, Expr.frames, Expr.occurrences]
      exact Traced.refer name
  | .array elements _ =>
      simp only [Expr.steps, Expr.frames, Expr.occurrences]
      exact ((Traced.text _).before (elements_traced elements frames next)).after (Traced.text _)
  | .object properties _ =>
      simp only [Expr.steps, Expr.frames, Expr.occurrences]
      exact ((Traced.text _).before (properties_traced properties frames next)).after
        (Traced.text _)
  | .function name params body _ _ =>
      simp only [Expr.steps, Expr.frames, Expr.occurrences, List.length_cons, List.append_assoc]
      apply Traced.parenthesized
      apply Traced.framed
      have rest := Traced.functionRest params (lines_traced body (next :: frames) (next + 1))
        fun name hoisted => hoistedNames_written hoisted (next :: frames) (next + 1)
      simpa only [Nat.zero_add] using (Traced.functionHead name).append rest
  | .arrow params result _ _ =>
      simp only [Expr.steps, Expr.frames, Expr.occurrences, List.length_cons, List.append_assoc]
      apply Traced.parenthesized
      apply Traced.framed
      have written := (result.traced (next :: frames) (next + 1)).after (Traced.text "; \x7d")
      have rest := (Traced.params params).parenthesized.append
        ((Traced.text " \x7b return ").before written)
      rw [Nat.zero_add] at rest
      exact (Traced.text _).before rest
  | .arrowBlock params body _ _ =>
      simp only [Expr.steps, Expr.frames, Expr.occurrences, List.length_cons, List.append_assoc]
      apply Traced.parenthesized
      apply Traced.framed
      exact (Traced.text _).before
        (Traced.functionRest params (lines_traced body (next :: frames) (next + 1))
          fun name hoisted => hoistedNames_written hoisted (next :: frames) (next + 1))
  | .unary op arg _ =>
      simp only [Expr.steps, Expr.frames, Expr.occurrences]
      exact (Traced.text _).before (arg.traced frames next).parenthesized
  | .binary op left right _ =>
      simp only [Expr.steps, Expr.frames, Expr.occurrences, List.length_append]
      exact (((left.traced frames next).asLeft.after (Traced.text _)).append
        (right.traced frames _)).parenthesized
  | .assign op target value _ =>
      simp only [Expr.steps, Expr.frames, Expr.occurrences, List.length_append]
      exact (((target.traced frames next).after (Traced.text _)).append
        (value.traced frames _)).parenthesized
  | .update op true arg _ =>
      simp only [Expr.steps, Expr.frames, Expr.occurrences]
      exact ((Traced.text _).before (arg.traced frames next)).parenthesized
  | .update op false arg _ =>
      simp only [Expr.steps, Expr.frames, Expr.occurrences]
      exact ((arg.traced frames next).after (Traced.text _)).parenthesized
  | .conditional test consequent alternate _ =>
      simp only [Expr.steps, Expr.frames, Expr.occurrences, List.length_append]
      have third : Traced frames (next + (test.frames.length + consequent.frames.length)) _ _ _ :=
        (alternate.traced frames _).placed (Nat.add_assoc _ _ _)
      exact (((((test.traced frames next).after (Traced.text _)).append
        (consequent.traced frames _)).after (Traced.text _)).append third).parenthesized
  | .sequence exprs _ =>
      simp only [Expr.steps, Expr.frames, Expr.occurrences]
      exact (exprs_traced exprs frames next).parenthesized
  | .member object name _ =>
      simp only [Expr.steps, Expr.frames, Expr.occurrences]
      exact (object.traced frames next).asOperand.after (Traced.text _)
  | .index object property _ =>
      simp only [Expr.steps, Expr.frames, Expr.occurrences, List.length_append]
      exact (((object.traced frames next).asOperand.after (Traced.text _)).append
        (property.traced frames _)).after (Traced.text _)
  | .call callee args _ =>
      simp only [Expr.steps, Expr.frames, Expr.occurrences, List.length_append]
      exact (callee.traced frames next).asOperand.append (exprs_traced args frames _).parenthesized
  | .new callee args _ =>
      simp only [Expr.steps, Expr.frames, Expr.occurrences, List.length_append]
      exact ((Traced.text _).before (callee.traced frames next).asConstructor).append
        (exprs_traced args frames _).parenthesized
  | .unsupported kind span =>
      simp only [Expr.steps, Expr.frames, Expr.occurrences]
      exact Traced.reject _

theorem exprs_traced (exprs : List Expr) (frames : List Nat) (next : Nat) :
    Traced frames next (exprsSteps exprs) (exprsFrames exprs).length
      (exprsOccurrences frames next exprs) := by
  match exprs with
  | [] =>
      simp only [exprsSteps, exprsFrames, exprsOccurrences]
      exact Traced.nil
  | [expr] =>
      simp only [exprsSteps, exprsFrames, exprsOccurrences, List.append_nil]
      exact expr.traced frames next
  | expr :: following :: rest =>
      rw [exprsSteps_cons_cons, exprsFrames, exprsOccurrences, List.length_append]
      exact ((expr.traced frames next).after (Traced.text _)).append
        (exprs_traced (following :: rest) frames _)

theorem optional_traced (optional : Option Expr) (frames : List Nat) (next : Nat) :
    Traced frames next (optionalSteps optional) (optionalFrames optional).length
      (optionalOccurrences frames next optional) := by
  match optional with
  | none => exact Traced.nil
  | some expr => exact (Traced.text _).before (expr.traced frames next)

theorem elements_traced (elements : List (Option Expr)) (frames : List Nat) (next : Nat) :
    Traced frames next (elementSteps elements) (elementFrames elements).length
      (elementOccurrences frames next elements) := by
  match elements with
  | [] =>
      simp only [elementSteps, elementFrames, elementOccurrences]
      exact Traced.nil
  | [none] =>
      simp only [elementSteps, elementFrames, elementOccurrences]
      exact Traced.text _
  | [some expr] =>
      simp only [elementSteps, elementFrames, elementOccurrences, optionalFrames,
        optionalOccurrences, List.append_nil]
      exact expr.traced frames next
  | none :: following :: rest =>
      rw [elementSteps_hole_cons, elementFrames, elementOccurrences]
      exact (Traced.text _).before (elements_traced (following :: rest) frames next)
  | some expr :: following :: rest =>
      rw [elementSteps_cons_cons, elementFrames, elementOccurrences, List.length_append]
      exact ((expr.traced frames next).after (Traced.text _)).append
        (elements_traced (following :: rest) frames _)

theorem properties_traced (properties : List Property) (frames : List Nat) (next : Nat) :
    Traced frames next (propertySteps properties) (propertyFrames properties).length
      (propertyOccurrences frames next properties) := by
  match properties with
  | [] =>
      simp only [propertySteps, propertyFrames, propertyOccurrences]
      exact Traced.nil
  | [property] =>
      simp only [propertySteps, propertyFrames, propertyOccurrences, List.append_nil]
      exact property.traced frames next
  | property :: following :: rest =>
      rw [propertySteps_cons_cons, propertyFrames, propertyOccurrences, List.length_append]
      exact ((property.traced frames next).after (Traced.text _)).append
        (properties_traced (following :: rest) frames _)

theorem Property.traced (property : Property) (frames : List Nat) (next : Nat) :
    Traced frames next property.steps property.frames.length
      (property.occurrences frames next) := by
  match property with
  | .named name value _ =>
      simp only [Property.steps, Property.frames, Property.occurrences]
      have key : Traced frames next name.steps 0 [] := by
        cases name <;> exact Traced.text _
      exact (key.before (Traced.text _)).before (value.traced frames next)
  | .computed key value _ =>
      simp only [Property.steps, Property.frames, Property.occurrences, List.length_append]
      exact (((Traced.text _).before (key.traced frames next)).after (Traced.text _)).append
        (value.traced frames _)

theorem Stmt.traced (stmt : Stmt) (frames : List Nat) (next : Nat) :
    Traced frames next stmt.steps stmt.frames.length (stmt.occurrences frames next) := by
  match stmt with
  | .var kind decls span =>
      simp only [Stmt.steps, Stmt.frames, Stmt.occurrences]
      exact (decls_traced kind span decls frames next).after (Traced.text _)
  | .function name params body _ _ =>
      have rest := Traced.functionRest params (lines_traced body (next :: frames) (next + 1))
        fun name hoisted => hoistedNames_written hoisted (next :: frames) (next + 1)
      cases name with
      | none =>
          simp only [Stmt.steps, Stmt.frames, Stmt.occurrences, List.length_cons, List.append_assoc]
          exact ((Traced.text _).before rest).framed.parenthesized.after (Traced.text ";")
      | some name =>
          simp only [Stmt.steps, Stmt.frames, Stmt.occurrences, List.length_cons, List.append_assoc]
          have whole := (Traced.functionHead (some name)).append rest.framed
          rwa [Nat.zero_add] at whole
  | .block body _ =>
      simp only [Stmt.steps, Stmt.frames, Stmt.occurrences, List.length_cons]
      exact ((lines_traced body (next :: frames) (next + 1)).body
        fun name hoisted => hoistedNames_written hoisted (next :: frames) (next + 1)).framed
  | .cond test consequent none _ =>
      simp only [Stmt.steps, Stmt.frames, Stmt.occurrences, alternateFrames, alternateOccurrences,
        List.append_nil, List.length_append]
      exact (((Traced.text _).before (test.traced frames next)).after (Traced.text _)).append
        (consequent.traced frames _)
  | .cond test consequent (some alternate) _ =>
      simp only [Stmt.steps, Stmt.frames, Stmt.occurrences, alternateFrames, alternateOccurrences,
        List.length_append]
      have branch : Traced frames (next + test.frames.length)
          (if consequent.isBlock then consequent.steps
            else [.braced ([.newline] ++ consequent.steps)]) consequent.frames.length
          (consequent.occurrences frames (next + test.frames.length)) := by
        split
        · exact consequent.traced frames _
        · exact (Traced.newline.before (consequent.traced frames _)).braced
      have third : Traced frames (next + (test.frames.length + consequent.frames.length)) _ _ _ :=
        (alternate.traced frames _).placed (Nat.add_assoc _ _ _)
      have front := (((Traced.text "if (").before (test.traced frames next)).after
        (Traced.text ") ")).append branch
      simpa only [List.append_assoc] using (front.after (Traced.text " else ")).append third
  | .loop init test update body span =>
      rw [Stmt.steps_loop, Stmt.frames, Stmt.occurrences, List.length_cons]
      apply Traced.framed
      have start := (init.traced span (next :: frames) (next + 1)).after (Traced.text ";")
      have second := (start.append (optional_traced test (next :: frames) _)).after
        (Traced.text ";")
      have third := (second.append ((optional_traced update (next :: frames)
        (next + 1 + init.frames.length + (optionalFrames test).length)).placed
          (by omega))).after (Traced.text ") ")
      have whole := third.append ((body.traced (next :: frames)
        (next + 1 + init.frames.length + (optionalFrames test).length +
          (optionalFrames update).length)).placed (by omega))
      simpa only [List.append_assoc, List.length_append, Nat.add_assoc] using
        (Traced.text _).before whole
  | .whileLoop test body _ =>
      simp only [Stmt.steps, Stmt.frames, Stmt.occurrences, List.length_append]
      exact (((Traced.text _).before (test.traced frames next)).after (Traced.text _)).append
        (body.traced frames _)
  | .doWhile body test _ =>
      simp only [Stmt.steps, Stmt.frames, Stmt.occurrences, List.length_append]
      exact ((((Traced.text _).before (body.traced frames next)).after (Traced.text _)).append
        (test.traced frames _)).after (Traced.text _)
  | .exitLoop _ | .nextLoop _ | .empty _ | .ret none _ =>
      simp only [Stmt.steps, Stmt.frames, Stmt.occurrences]
      exact Traced.text _
  | .ret (some arg) _ =>
      simp only [Stmt.steps, Stmt.frames, Stmt.occurrences]
      exact ((Traced.text _).before (arg.traced frames next)).after (Traced.text _)
  | .throw arg _ =>
      simp only [Stmt.steps, Stmt.frames, Stmt.occurrences]
      exact ((Traced.text _).before (arg.traced frames next)).after (Traced.text _)
  | .expr arg _ =>
      simp only [Stmt.steps, Stmt.frames, Stmt.occurrences]
      exact (arg.traced frames next).after (Traced.text _)
  | .unsupported kind span =>
      simp only [Stmt.steps, Stmt.frames, Stmt.occurrences]
      exact Traced.reject _

theorem lines_traced (body : List Stmt) (frames : List Nat) (next : Nat) :
    Traced frames next (lineSteps body) (stmtsFrames body).length
      (stmtsOccurrences frames next body) := by
  match body with
  | [] =>
      simp only [lineSteps, stmtsFrames, stmtsOccurrences]
      exact Traced.nil
  | stmt :: rest =>
      rw [lineSteps, stmtsFrames, stmtsOccurrences, List.length_append]
      exact (Traced.newline.before (stmt.traced frames next)).append (lines_traced rest frames _)

theorem decls_traced (kind : DeclKind) (span : Span) (decls : List Declarator) (frames : List Nat)
    (next : Nat) :
    Traced frames next (declSteps kind span decls) (declFrames decls).length
      (declOccurrences frames next decls) := by
  match decls with
  | [] =>
      simp only [declSteps, declFrames, declOccurrences]
      exact Traced.reject _
  | .mk name none _ :: _ =>
      simp only [declSteps, declFrames, declOccurrences]
      exact (Traced.text _).before (Traced.declare name)
  | .mk name (some init) _ :: _ =>
      simp only [declSteps, declFrames, declOccurrences]
      have head : Traced frames next _ 0 [⟨name, frames, true⟩] :=
        ((Traced.text (kind.word ++ " ")).before (Traced.declare name)).after (Traced.text " = ")
      have whole := head.append (init.traced frames next)
      rw [Nat.zero_add] at whole
      exact whole

theorem LoopInit.traced (init : LoopInit) (span : Span) (frames : List Nat) (next : Nat) :
    Traced frames next (init.steps span) init.frames.length (init.occurrences frames next) := by
  match init with
  | .absent =>
      simp only [LoopInit.steps, LoopInit.frames, LoopInit.occurrences]
      exact Traced.nil
  | .decl kind decls =>
      simp only [LoopInit.steps, LoopInit.frames, LoopInit.occurrences]
      exact decls_traced kind span decls frames next
  | .expr expr =>
      simp only [LoopInit.steps, LoopInit.frames, LoopInit.occurrences]
      exact expr.traced frames next

end

theorem Program.lines_traced (body : List Stmt) (frames : List Nat) (next : Nat) :
    Traced frames next (body.flatMap fun stmt => stmt.steps ++ [.newline])
      (stmtsFrames body).length (stmtsOccurrences frames next body) := by
  induction body generalizing next with
  | nil =>
      simp only [stmtsFrames, stmtsOccurrences]
      exact Traced.nil
  | cons stmt rest ih =>
      rw [List.flatMap_cons, stmtsFrames, stmtsOccurrences, List.length_append]
      exact ((stmt.traced frames next).after Traced.newline).append (ih _)

theorem Program.traced (program : Program) :
    Traced [0] 1 program.steps (stmtsFrames program.body).length program.occurrences :=
  (Program.lines_traced program.body [0] 1).hoist fun _ hoisted =>
    hoistedNames_written hoisted [0] 1

def Program.sites (program : Program) : List Binding :=
  program.occurrences.filterMap Occurrence.site?

theorem Program.mem_sites (program : Program) {binding : Binding} :
    binding ∈ program.sites ↔
      ∃ event ∈ Step.eventsAll [0] 1 program.steps, event.occurrence.site? = some binding := by
  have traced := program.traced
  rw [Program.sites, List.mem_filterMap]
  constructor
  · rintro ⟨occurrence, member, site⟩
    rw [← traced.written] at member
    obtain ⟨event, written, rfl⟩ := List.mem_map.mp member
    exact ⟨event, List.mem_of_mem_filter written, site⟩
  · rintro ⟨event, member, site⟩
    exact ⟨event.occurrence, traced.covered event member, site⟩

/-- At each site stands the name of its binding, and all bindings have a site. -/
theorem Program.declarations_eq {program : Program} {writer : Writer}
    (ran : Step.runAll program.steps {} = .ok () writer) :
    ∃ bindings : List Binding, bindings.Nodup ∧ writer.context.count = bindings.length ∧
      (∀ binding, binding ∈ bindings ↔ binding ∈ program.sites) ∧
      writer.declarations = program.sites.map (mintedFor bindings) := by
  have traces := Step.runAll_traces program.steps Writer.Tracked.initial ran
  have traced := program.traced
  refine ⟨_, traces.tracked.records.distinct, traces.tracked.records.count, ?_, ?_⟩
  · intro binding
    rw [mem_foldl_registered, Program.mem_sites]
    simp
  · rw [writer.declarations_eq, traces.names, Program.sites, ← traced.written,
      ← declared_writtenNames]
    rfl

/-- The names of two declaration sites are the same exactly when both declare one name in one frame,
and the numbers of the names are those below the number of names made. -/
theorem declared_names_eq_iff_same_binding (program : Program) (style : Style) (text : String)
    (valid : separatorFault? style.separator = none)
    (written : program.transform style = .ok text) :
    ∃ writer, Step.runAll program.steps {} = .ok () writer ∧
      text = style.render writer.output.toList ∧
      writer.declarations.map Minted.base = program.sites.map Prod.snd ∧
      (∀ here ∈ program.sites.zip writer.declarations,
        ∀ there ∈ program.sites.zip writer.declarations,
          here.2.text style.separator = there.2.text style.separator ↔ here.1 = there.1) ∧
      ∀ number, number ∈ writer.declarations.map Minted.index ↔ number < writer.context.count := by
  rw [Program.transform, Program.template] at written
  cases ran : Step.runAll program.steps {} with
  | error cause writer =>
      rw [ran] at written
      cases written
  | ok _ writer =>
      rw [ran] at written
      obtain ⟨bindings, distinct, count, listed, declarations⟩ := Program.declarations_eq ran
      refine ⟨writer, rfl, (Except.ok.inj written).symm, ?_, ?_, ?_⟩
      · rw [declarations, List.map_map]
        rfl
      · intro here hereMember there thereMember
        have stands {pair : Binding × Minted}
            (member : pair ∈ program.sites.zip writer.declarations) :
            pair.1 ∈ bindings ∧ pair.2 = mintedFor bindings pair.1 := by
          rw [declarations, List.zip_map_right] at member
          obtain ⟨sites, paired, rfl⟩ := List.mem_map.mp member
          rw [List.zip, List.zipWith_self] at paired
          obtain ⟨site, present, rfl⟩ := List.mem_map.mp paired
          exact ⟨(listed site).mpr present, rfl⟩
        obtain ⟨present, hereName⟩ := stands hereMember
        rw [hereName, (stands thereMember).2, ← mintedFor_inj present]
        exact (Minted.text_injective (exists_nonDigit_of_valid valid)).eq_iff
      · intro number
        rw [declarations, List.map_map, count]
        constructor
        · intro member
          obtain ⟨site, present, rfl⟩ := List.mem_map.mp member
          exact List.idxOf_lt_length_iff.mpr ((listed site).mpr present)
        · -- a number below the count is the place of a binding, and every binding has a site
          intro below
          refine List.mem_map.mpr ⟨bindings[number], (listed _).mp (List.getElem_mem below), ?_⟩
          exact distinct.idxOf_getElem number below

theorem declared_names_eq_iff_late :
    let program : Program := ⟨[
      .cond (.ident "y" {}) (.var .var [.mk "y" none {}] {}) none {},
      .function (some "x") [⟨"x", {}⟩, ⟨"x", {}⟩] [] {} {},
      .block [.var .lexical [.mk "x$0" none {}] {}] {}], {}⟩
    let text := "if (y) var y$1;\nfunction x$0(x$2, x$2) \x7b\x7d\n\x7b\n  let x$0$3;\n\x7d\n"
    separatorFault? "$" = none ∧ program.transform {} = .ok text ∧
      ∃ writer, Step.runAll program.steps {} = .ok () writer ∧
        text = Style.render {} writer.output.toList ∧
        writer.declarations.map Minted.base = program.sites.map Prod.snd ∧
        (∀ here ∈ program.sites.zip writer.declarations,
          ∀ there ∈ program.sites.zip writer.declarations,
            here.2.text "$" = there.2.text "$" ↔ here.1 = there.1) ∧
        ∀ number, number ∈ writer.declarations.map Minted.index ↔ number < writer.context.count :=
  ⟨by decide, rfl, declared_names_eq_iff_same_binding _ {} _ (by decide) rfl⟩

end Freshen
