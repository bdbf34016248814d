import Freshen.Proofs.History

/-!
A frame opens with its names. Before anything in a frame is referred to, all names that the frame
has by the tree are declared: own name and parameters of a function, what the statements of its list
declare, and the name of a `for` loop. No others are declared without being written.
-/

namespace Freshen

namespace Step

/-- The names that steps declare before they refer to anything. -/
def openingNames : List Step → List String
  | bind name :: rest | declare name :: rest => name :: openingNames rest
  | text _ :: rest | newline :: rest => openingNames rest
  | _ => []

mutual

/-- The names that a step declares in the frame it starts in without writing them. -/
def binds : Step → List String
  | bind name => [name]
  | braced body => bindsAll body
  | _ => []

def bindsAll : List Step → List String
  | [] => []
  | step :: rest => binds step ++ bindsAll rest

end

mutual

def bodies : Step → List (List Step)
  | framed body => body :: bodiesAll body
  | braced body => bodiesAll body
  | _ => []

def bodiesAll : List Step → List (List Step)
  | [] => []
  | step :: rest => bodies step ++ bodiesAll rest

end

theorem bindsAll_append (first second : List Step) :
    bindsAll (first ++ second) = bindsAll first ++ bindsAll second := by
  induction first with
  | nil => rfl
  | cons step rest ih => simp [bindsAll, ih]

theorem bodiesAll_append (first second : List Step) :
    bodiesAll (first ++ second) = bodiesAll first ++ bodiesAll second := by
  induction first with
  | nil => rfl
  | cons step rest ih => simp [bodiesAll, ih]

mutual

theorem length_bodies (step : Step) : (bodies step).length = width step := by
  match step with
  | text _ | newline | bind _ | declare _ | refer _ | reject _ => rfl
  | framed body => simp [bodies, width, length_bodiesAll body]
  | braced body => simp [bodies, width, length_bodiesAll body]

theorem length_bodiesAll (steps : List Step) : (bodiesAll steps).length = widthAll steps := by
  match steps with
  | [] => rfl
  | step :: rest => simp [bodiesAll, widthAll, length_bodies step, length_bodiesAll rest]

end

def frameBody (table : List (List Step)) (frame : Nat) : List Step := table[frame]?.getD []

section FrameBody

variable {body : List Step} {table : List (List Step)} {frame next : Nat}

theorem frameBody_inner (deeper : next < frame) :
    frameBody (body :: table) (frame - next) = frameBody table (frame - (next + 1)) := by
  have shifted : frame - next = frame - (next + 1) + 1 := by omega
  rw [frameBody, shifted, List.getElem?_cons_succ, frameBody]

theorem frameBody_first (step : Step) (rest : List Step) (low : next ≤ frame)
    (high : frame < next + width step) :
    frameBody (bodiesAll (step :: rest)) (frame - next) =
      frameBody (bodies step) (frame - next) := by
  have place : frame - next < (bodies step).length := by
    rw [length_bodies]
    omega
  rw [frameBody, bodiesAll, List.getElem?_append_left place, frameBody]

theorem frameBody_rest (step : Step) (rest : List Step) (later : next + width step ≤ frame) :
    frameBody (bodiesAll (step :: rest)) (frame - next) =
      frameBody (bodiesAll rest) (frame - (next + width step)) := by
  have place : (bodies step).length ≤ frame - next := by
    rw [length_bodies]
    omega
  rw [frameBody, bodiesAll, List.getElem?_append_right place, length_bodies, Nat.sub_sub, frameBody]

end FrameBody

theorem openingNames_declared (body : List Step) {frames : List Nat} {frame next : Nat}
    {bindings : List Binding} {moment : Moment}
    (member : moment ∈ history bindings (eventsAll (frame :: frames) next body))
    (refers : moment.occurrence.declares = false) {name : String}
    (opens : name ∈ openingNames body) : (frame, name) ∈ moment.declared := by
  fun_induction openingNames body generalizing bindings with
  | case1 first rest ih | case2 first rest ih =>
      -- a declaration comes first, and all that follows sees it
      simp only [eventsAll, events, width, Nat.add_zero, List.singleton_append, history,
        List.mem_cons] at member
      rcases member with rfl | member
      · cases refers
      · rcases List.mem_cons.mp opens with rfl | opens
        · apply subset_history member
          exact Event.mem_registered.mpr (Or.inr rfl)
        · exact ih member opens
  | case3 content rest ih | case4 rest ih =>
      simp only [eventsAll, events, width, Nat.add_zero, List.nil_append] at member
      exact ih member opens
  | case5 => cases opens

mutual

/-- At a reference, each frame around it has declared what it opens with. -/
theorem opening_declared (step : Step) {frames : List Nat} {next : Nat}
    (nested : Nested frames next) {bindings : List Binding} {moment : Moment}
    (member : moment ∈ history bindings (events frames next step))
    (refers : moment.occurrence.declares = false) {frame : Nat}
    (around : frame ∈ moment.occurrence.frames) (opened : next ≤ frame) {name : String}
    (opens : name ∈ openingNames (frameBody (bodies step) (frame - next))) :
    (frame, name) ∈ moment.declared := by
  match step with
  | text _ | newline | bind _ | declare _ | refer _ | reject _ =>
      simp [bodies, frameBody, openingNames] at opens
  | framed body =>
      rw [events] at member
      rw [bodies] at opens
      rcases Nat.eq_or_lt_of_le opened with rfl | deeper
      · have direct : name ∈ openingNames body := by simpa [frameBody] using opens
        exact openingNames_declared body member refers direct
      · rw [frameBody_inner deeper] at opens
        exact openingAll_declared body nested.enter member refers around deeper opens
  | braced body =>
      rw [events] at member
      rw [bodies] at opens
      exact openingAll_declared body nested member refers around opened opens

theorem openingAll_declared (steps : List Step) {frames : List Nat} {next : Nat}
    (nested : Nested frames next) {bindings : List Binding} {moment : Moment}
    (member : moment ∈ history bindings (eventsAll frames next steps))
    (refers : moment.occurrence.declares = false) {frame : Nat}
    (around : frame ∈ moment.occurrence.frames) (opened : next ≤ frame) {name : String}
    (opens : name ∈ openingNames (frameBody (bodiesAll steps) (frame - next))) :
    (frame, name) ∈ moment.declared := by
  match steps with
  | [] => simp [eventsAll, history] at member
  | step :: rest =>
      rw [eventsAll, history_append] at member
      rcases List.mem_append.mp member with early | late
      · have bound := events_below step nested (mem_of_history early) around opened
        rw [frameBody_first step rest opened bound] at opens
        exact opening_declared step nested early refers around opened opens
      · have bound := eventsAll_above rest nested (mem_of_history late) around opened
        rw [frameBody_rest step rest bound] at opens
        exact openingAll_declared rest (nested.later _) late refers around bound opens

end

mutual

theorem bound_of_unwritten (step : Step) {frames : List Nat} {next : Nat}
    (nested : Nested frames next) {event : Event} (happens : event ∈ events frames next step)
    (unwritten : event.written = false) {binding : Binding}
    (site : event.occurrence.site? = some binding) :
    frames.head? = some binding.1 ∧ binding.2 ∈ binds step ∨
      next ≤ binding.1 ∧ binding.2 ∈ bindsAll (frameBody (bodies step) (binding.1 - next)) := by
  match step with
  | text _ | newline | reject _ => simp [events] at happens
  | declare _ | refer _ =>
      rw [events, List.mem_singleton] at happens
      subst happens
      cases unwritten
  | bind name =>
      rw [events, List.mem_singleton] at happens
      subst happens
      obtain ⟨_, innermost, same⟩ := Occurrence.head_of_site site
      exact Or.inl ⟨innermost, by simp [binds, ← same]⟩
  | framed body =>
      rw [events] at happens
      rw [bodies]
      rcases boundAll_of_unwritten body nested.enter happens unwritten site with direct | inner
      · have here : next = binding.1 := by simpa using direct.1
        refine Or.inr ⟨Nat.le_of_eq here, ?_⟩
        simpa [frameBody, here] using direct.2
      · refine Or.inr ⟨Nat.le_of_lt inner.1, ?_⟩
        rw [frameBody_inner inner.1]
        exact inner.2
  | braced body =>
      rw [events] at happens
      rw [binds, bodies]
      exact boundAll_of_unwritten body nested happens unwritten site

theorem boundAll_of_unwritten (steps : List Step) {frames : List Nat} {next : Nat}
    (nested : Nested frames next) {event : Event} (happens : event ∈ eventsAll frames next steps)
    (unwritten : event.written = false) {binding : Binding}
    (site : event.occurrence.site? = some binding) :
    frames.head? = some binding.1 ∧ binding.2 ∈ bindsAll steps ∨
      next ≤ binding.1 ∧
        binding.2 ∈ bindsAll (frameBody (bodiesAll steps) (binding.1 - next)) := by
  match steps with
  | [] => simp [eventsAll] at happens
  | step :: rest =>
      rw [eventsAll] at happens
      rw [bindsAll, List.mem_append]
      have innermost := (Occurrence.head_of_site site).2.1
      have around := List.mem_of_head? innermost
      rcases List.mem_append.mp happens with early | late
      · rcases bound_of_unwritten step nested early unwritten site with direct | inner
        · exact Or.inl ⟨direct.1, Or.inl direct.2⟩
        · have bound := events_below step nested early around inner.1
          rw [frameBody_first step rest inner.1 bound]
          exact Or.inr inner
      · rcases boundAll_of_unwritten rest (nested.later _) late unwritten site with direct | inner
        · exact Or.inl ⟨direct.1, Or.inr direct.2⟩
        · have opened : next ≤ binding.1 := Nat.le_trans (Nat.le_add_right _ _) inner.1
          rw [frameBody_rest step rest inner.1]
          exact Or.inr ⟨opened, inner.2⟩

end

end Step

open Step

/-- The steps of a frame declare its names first, and bind no others silently. -/
structure Announces (names : List String) (body : List Step) : Prop where
  bound : bindsAll body ⊆ names
  opening : names ⊆ openingNames body

/-- The steps open frames with the names of the table. In the frame they start in they bind silently
only what is hoisted there. -/
structure Opens (hoisted : List String) (table : List (List String)) (steps : List Step) :
    Prop where
  bound : bindsAll steps ⊆ hoisted
  frames : List.Forall₂ Announces table (bodiesAll steps)

namespace Opens

variable {hoisted : List String} {table others : List (List String)} {steps more : List Step}

theorem of_leaf (silent : bindsAll steps = []) (closed : bodiesAll steps = []) :
    Opens hoisted [] steps where
  bound := by simp [silent]
  frames := by
    rw [closed]
    exact List.Forall₂.nil

theorem nil : Opens hoisted [] [] := of_leaf rfl rfl

theorem append (left : Opens hoisted table steps) (right : Opens hoisted others more) :
    Opens hoisted (table ++ others) (steps ++ more) where
  bound := by
    rw [bindsAll_append]
    exact List.append_subset.mpr ⟨left.bound, right.bound⟩
  frames := by
    rw [bodiesAll_append]
    exact List.rel_append left.frames right.frames

theorem text (content : String) : Opens hoisted [] [.text content] := of_leaf rfl rfl

theorem newline : Opens hoisted [] [.newline] := of_leaf rfl rfl

theorem refer (name : String) : Opens hoisted [] [.refer name] := of_leaf rfl rfl

theorem declare (name : String) : Opens hoisted [] [.declare name] := of_leaf rfl rfl

theorem reject (cause : Unsupported) : Opens hoisted [] [.reject cause] := of_leaf rfl rfl

theorem before (start : Opens hoisted [] steps) (rest : Opens hoisted table more) :
    Opens hoisted table (steps ++ more) :=
  start.append rest

theorem after (start : Opens hoisted table steps) (rest : Opens hoisted [] more) :
    Opens hoisted table (steps ++ more) := by
  simpa using start.append rest

theorem parenthesized (inside : Opens hoisted table steps) :
    Opens hoisted table (Freshen.parenthesized steps) :=
  ((text "(").before inside).after (text ")")

theorem braced (inside : Opens hoisted table steps) : Opens hoisted table [.braced steps] where
  bound := by simpa [bindsAll, binds] using inside.bound
  frames := by simpa [bodiesAll, bodies] using inside.frames

theorem framed {names : List String} (opening : names ⊆ openingNames steps)
    (inside : Opens names table steps) : Opens hoisted (names :: table) [.framed steps] where
  bound := by simp [bindsAll, binds]
  frames := by
    have first : Announces names steps := ⟨inside.bound, opening⟩
    simpa [bodiesAll, bodies] using List.Forall₂.cons first inside.frames

theorem asOperand {expr : Expr} (inside : Opens hoisted table steps) :
    Opens hoisted table (expr.asOperand steps) := by
  rw [Expr.asOperand]
  split
  · exact inside
  · exact inside.parenthesized

theorem asConstructor {expr : Expr} (inside : Opens hoisted table steps) :
    Opens hoisted table (expr.asConstructor steps) := by
  rw [Expr.asConstructor]
  split
  · exact inside
  · exact inside.parenthesized

theorem asLeft {expr : Expr} {op : BinaryOp} (inside : Opens hoisted table steps) :
    Opens hoisted table (expr.asLeft op steps) := by
  rw [Expr.asLeft]
  split
  · exact inside.parenthesized
  · exact inside

theorem functionHead (name : Option String) : Opens hoisted [] (Freshen.functionHead name) := by
  cases name <;> exact of_leaf rfl rfl

theorem params (params : List Param) : Opens hoisted [] (paramSteps params) := by
  match params with
  | [] => exact nil
  | [param] => exact declare param.name
  | first :: second :: rest =>
      rw [paramSteps_cons_cons]
      exact ((declare first.name).before (text ", ")).before (Opens.params (second :: rest))

theorem body {stmts : List Stmt} (known : hoistedNames stmts ⊆ hoisted)
    (lines : Opens hoisted table more) : Opens hoisted table (hoistSteps stmts ++ more) := by
  rw [hoistSteps, ← hoistedNames]
  generalize hoistedNames stmts = names at known
  induction names with
  | nil => exact lines
  | cons name rest ih =>
      have tail := ih fun other member => known (List.mem_cons_of_mem _ member)
      exact {
        bound := by
          rw [List.map_cons, List.cons_append, bindsAll, binds, List.singleton_append]
          exact List.cons_subset.mpr ⟨known List.mem_cons_self, tail.bound⟩
        frames := by simpa [bodiesAll, bodies] using tail.frames }

theorem bodySteps {stmts : List Stmt} (lines : Opens hoisted table (lineSteps stmts)) :
    Opens hoisted table (Freshen.bodySteps stmts) := by
  rw [bodySteps_eq]
  cases stmts with
  | nil => exact lines.after (text _)
  | cons stmt rest => exact lines.braced

theorem functionRest {stmts : List Stmt} (list : List Param) (known : hoistedNames stmts ⊆ hoisted)
    (lines : Opens hoisted table (lineSteps stmts)) :
    Opens hoisted table (Freshen.parenthesized (paramSteps list) ++ ([.text " "] ++
      (hoistSteps stmts ++ Freshen.bodySteps stmts))) :=
  (params list).parenthesized.before ((text " ").before (lines.bodySteps.body known))

end Opens

/-! What the steps before the body of a frame declare. -/

theorem openingNames_functionHead (name : Option String) (rest : List Step) :
    openingNames (functionHead name ++ rest) = name.toList ++ openingNames rest := by
  cases name <;> simp [functionHead, openingNames]

theorem openingNames_params (params : List Param) (rest : List Step) :
    openingNames (paramSteps params ++ rest) = params.map Param.name ++ openingNames rest := by
  match params with
  | [] => simp [paramSteps]
  | [param] => simp [paramSteps, openingNames]
  | first :: second :: others =>
      rw [paramSteps_cons_cons]
      simp [openingNames, openingNames_params (second :: others)]

theorem openingNames_hoist (body : List Stmt) (rest : List Step) :
    openingNames (hoistSteps body ++ rest) = hoistedNames body ++ openingNames rest := by
  rw [hoistSteps, ← hoistedNames]
  induction hoistedNames body with
  | nil => rfl
  | cons name names ih => simp [openingNames, ih]

theorem openingNames_parenthesized (params : List Param) (rest : List Step) :
    openingNames (parenthesized (paramSteps params) ++ rest) =
      params.map Param.name ++ openingNames rest := by
  rw [parenthesized, List.append_assoc, List.append_assoc, List.singleton_append, openingNames,
    openingNames_params, List.singleton_append, openingNames]

theorem openingNames_functionRest (params : List Param) (body : List Stmt) (rest : List Step) :
    openingNames (parenthesized (paramSteps params) ++ ([.text " "] ++
      (hoistSteps body ++ rest))) =
      params.map Param.name ++ (hoistedNames body ++ openingNames rest) := by
  rw [openingNames_parenthesized, List.singleton_append, openingNames, openingNames_hoist]

theorem functionNames_opening (name : Option String) (params : List Param) (body : List Stmt)
    (rest : List String) : functionNames name params body ⊆
      name.toList ++ (params.map Param.name ++ (hoistedNames body ++ rest)) := by
  intro label member
  simp only [functionNames, List.mem_eraseDups, List.mem_append] at member ⊢
  tauto

theorem hoistedNames_functionNames (name : Option String) (params : List Param)
    (body : List Stmt) : hoistedNames body ⊆ functionNames name params body := by
  intro label member
  simp [functionNames, member]

theorem hoistedNames_eraseDups (body : List Stmt) :
    hoistedNames body ⊆ (hoistedNames body).eraseDups :=
  fun _ member => List.mem_eraseDups.mpr member

theorem LoopInit.names_opening (init : LoopInit) (span : Span) (rest : List Step) :
    init.names ⊆ openingNames ([.text "for ("] ++ (init.steps span ++ rest)) := by
  rw [List.singleton_append, openingNames]
  match init with
  | .absent | .expr _ | .decl _ [] => simp [LoopInit.names]
  | .decl _ (.mk name none _ :: _) =>
      simp [LoopInit.names, LoopInit.steps, declSteps, openingNames, Declarator.name]
  | .decl _ (.mk name (some init) _ :: _) =>
      simp [LoopInit.names, LoopInit.steps, declSteps, openingNames, Declarator.name]

mutual

theorem Expr.opens (expr : Expr) {hoisted : List String} :
    Opens hoisted expr.frames expr.steps := by
  match expr with
  | .null _ | .bool _ _ | .number _ _ | .string _ _ | .regex _ _ _ =>
      simp only [Expr.steps, Expr.frames]
      exact Opens.text _
  | .ident name _ =>
      simp only [Expr.steps, Expr.frames]
      exact Opens.refer name
  | .array elements _ =>
      simp only [Expr.steps, Expr.frames]
      exact ((Opens.text _).before (elements_opens elements)).after (Opens.text _)
  | .object properties _ =>
      simp only [Expr.steps, Expr.frames]
      exact ((Opens.text _).before (properties_opens properties)).after (Opens.text _)
  | .function name params body _ _ =>
      simp only [Expr.steps, Expr.frames, List.append_assoc]
      apply Opens.parenthesized
      apply Opens.framed
      · rw [openingNames_functionHead, openingNames_functionRest]
        exact functionNames_opening name params body _
      · exact (Opens.functionHead name).before (Opens.functionRest params
          (hoistedNames_functionNames name params body) (lines_opens body))
  | .arrow params result _ _ =>
      simp only [Expr.steps, Expr.frames, List.append_assoc]
      apply Opens.parenthesized
      apply Opens.framed
      · rw [openingNames_functionHead, openingNames_parenthesized]
        exact functionNames_opening none params [] _
      · exact (Opens.functionHead none).before ((Opens.params params).parenthesized.before
          ((Opens.text _).before ((result.opens).after (Opens.text _))))
  | .arrowBlock params body _ _ =>
      simp only [Expr.steps, Expr.frames, List.append_assoc]
      apply Opens.parenthesized
      apply Opens.framed
      · rw [openingNames_functionHead, openingNames_functionRest]
        exact functionNames_opening none params body _
      · exact (Opens.functionHead none).before (Opens.functionRest params
          (hoistedNames_functionNames none params body) (lines_opens body))
  | .unary op arg _ =>
      simp only [Expr.steps, Expr.frames]
      exact (Opens.text _).before arg.opens.parenthesized
  | .binary op left right _ =>
      simp only [Expr.steps, Expr.frames]
      exact ((left.opens.asLeft.after (Opens.text _)).append right.opens).parenthesized
  | .assign op target value _ =>
      simp only [Expr.steps, Expr.frames]
      exact ((target.opens.after (Opens.text _)).append value.opens).parenthesized
  | .update op true arg _ =>
      simp only [Expr.steps, Expr.frames]
      exact ((Opens.text _).before arg.opens).parenthesized
  | .update op false arg _ =>
      simp only [Expr.steps, Expr.frames]
      exact (arg.opens.after (Opens.text _)).parenthesized
  | .conditional test consequent alternate _ =>
      simp only [Expr.steps, Expr.frames]
      exact ((((test.opens.after (Opens.text _)).append consequent.opens).after
        (Opens.text _)).append alternate.opens).parenthesized
  | .sequence exprs _ =>
      simp only [Expr.steps, Expr.frames]
      exact (exprs_opens exprs).parenthesized
  | .member object name _ =>
      simp only [Expr.steps, Expr.frames]
      exact object.opens.asOperand.after (Opens.text _)
  | .index object property _ =>
      simp only [Expr.steps, Expr.frames]
      exact ((object.opens.asOperand.after (Opens.text _)).append property.opens).after
        (Opens.text _)
  | .call callee args _ =>
      simp only [Expr.steps, Expr.frames]
      exact callee.opens.asOperand.append (exprs_opens args).parenthesized
  | .new callee args _ =>
      simp only [Expr.steps, Expr.frames]
      exact ((Opens.text _).before callee.opens.asConstructor).append
        (exprs_opens args).parenthesized
  | .unsupported kind span =>
      simp only [Expr.steps, Expr.frames]
      exact Opens.reject _

theorem exprs_opens (exprs : List Expr) {hoisted : List String} :
    Opens hoisted (exprsFrames exprs) (exprsSteps exprs) := by
  match exprs with
  | [] =>
      simp only [exprsSteps, exprsFrames]
      exact Opens.nil
  | [expr] =>
      simp only [exprsSteps, exprsFrames, List.append_nil]
      exact expr.opens
  | expr :: following :: rest =>
      rw [exprsSteps_cons_cons, exprsFrames]
      exact (expr.opens.after (Opens.text _)).append (exprs_opens (following :: rest))

theorem optional_opens (optional : Option Expr) {hoisted : List String} :
    Opens hoisted (optionalFrames optional) (optionalSteps optional) := by
  match optional with
  | none => exact Opens.nil
  | some expr => exact (Opens.text _).before expr.opens

theorem elements_opens (elements : List (Option Expr)) {hoisted : List String} :
    Opens hoisted (elementFrames elements) (elementSteps elements) := by
  match elements with
  | [] =>
      simp only [elementSteps, elementFrames]
      exact Opens.nil
  | [none] =>
      simp only [elementSteps, elementFrames]
      exact Opens.text _
  | [some expr] =>
      simp only [elementSteps, elementFrames, optionalFrames, List.append_nil]
      exact expr.opens
  | none :: following :: rest =>
      rw [elementSteps_hole_cons, elementFrames]
      exact (Opens.text _).before (elements_opens (following :: rest))
  | some expr :: following :: rest =>
      rw [elementSteps_cons_cons, elementFrames]
      exact (expr.opens.after (Opens.text _)).append (elements_opens (following :: rest))

theorem properties_opens (properties : List Property) {hoisted : List String} :
    Opens hoisted (propertyFrames properties) (propertySteps properties) := by
  match properties with
  | [] =>
      simp only [propertySteps, propertyFrames]
      exact Opens.nil
  | [property] =>
      simp only [propertySteps, propertyFrames, List.append_nil]
      exact property.opens
  | property :: following :: rest =>
      rw [propertySteps_cons_cons, propertyFrames]
      exact (property.opens.after (Opens.text _)).append (properties_opens (following :: rest))

theorem Property.opens (property : Property) {hoisted : List String} :
    Opens hoisted property.frames property.steps := by
  match property with
  | .named name value _ =>
      simp only [Property.steps, Property.frames]
      have key : Opens hoisted [] name.steps := by
        cases name <;> exact Opens.text _
      exact (key.before (Opens.text _)).before value.opens
  | .computed key value _ =>
      simp only [Property.steps, Property.frames]
      exact (((Opens.text _).before key.opens).after (Opens.text _)).append value.opens

theorem Stmt.opens (stmt : Stmt) {hoisted : List String} :
    Opens hoisted stmt.frames stmt.steps := by
  match stmt with
  | .var kind decls span =>
      simp only [Stmt.steps, Stmt.frames]
      exact (decls_opens kind span decls).after (Opens.text _)
  | .function name params body _ _ =>
      have rest := Opens.functionRest params (hoistedNames_functionNames none params body)
        (lines_opens body)
      have names := functionNames_opening none params body (openingNames (bodySteps body))
      cases name with
      | none =>
          simp only [Stmt.steps, Stmt.frames, List.append_assoc]
          refine (Opens.framed ?_ ((Opens.functionHead none).before rest)).parenthesized.after
            (Opens.text ";")
          rwa [openingNames_functionHead, openingNames_functionRest]
      | some name =>
          simp only [Stmt.steps, Stmt.frames, List.append_assoc]
          refine (Opens.functionHead (some name)).before (Opens.framed ?_ rest)
          rwa [openingNames_functionRest]
  | .block body _ =>
      simp only [Stmt.steps, Stmt.frames]
      refine Opens.framed ?_ ((lines_opens body).bodySteps.body (hoistedNames_eraseDups body))
      rw [openingNames_hoist]
      intro name member
      exact List.mem_append_left _ (List.mem_eraseDups.mp member)
  | .cond test consequent none _ =>
      simp only [Stmt.steps, Stmt.frames, alternateFrames, List.append_nil]
      exact (((Opens.text _).before test.opens).after (Opens.text _)).append consequent.opens
  | .cond test consequent (some alternate) _ =>
      simp only [Stmt.steps, Stmt.frames, alternateFrames]
      have branch : Opens hoisted consequent.frames (if consequent.isBlock then consequent.steps
          else [.braced ([.newline] ++ consequent.steps)]) := by
        split
        · exact consequent.opens
        · exact (Opens.newline.before consequent.opens).braced
      have front := (((Opens.text "if (").before test.opens).after (Opens.text ") ")).append branch
      simpa only [List.append_assoc] using
        (front.after (Opens.text " else ")).append alternate.opens
  | .loop init test update body span =>
      rw [Stmt.steps_loop, Stmt.frames]
      apply Opens.framed
      · exact init.names_opening span _
      · have start : Opens init.names _ _ := (init.opens span).after (Opens.text ";")
        have second := (start.append (optional_opens test)).after (Opens.text ";")
        have third := (second.append (optional_opens update)).after (Opens.text ") ")
        simpa only [List.append_assoc] using
          (Opens.text "for (").before (third.append body.opens)
  | .whileLoop test body _ =>
      simp only [Stmt.steps, Stmt.frames]
      exact (((Opens.text _).before test.opens).after (Opens.text _)).append body.opens
  | .doWhile body test _ =>
      simp only [Stmt.steps, Stmt.frames]
      exact ((((Opens.text _).before body.opens).after (Opens.text _)).append test.opens).after
        (Opens.text _)
  | .exitLoop _ | .nextLoop _ | .empty _ | .ret none _ =>
      simp only [Stmt.steps, Stmt.frames]
      exact Opens.text _
  | .ret (some arg) _ =>
      simp only [Stmt.steps, Stmt.frames]
      exact ((Opens.text _).before arg.opens).after (Opens.text _)
  | .throw arg _ =>
      simp only [Stmt.steps, Stmt.frames]
      exact ((Opens.text _).before arg.opens).after (Opens.text _)
  | .expr arg _ =>
      simp only [Stmt.steps, Stmt.frames]
      exact arg.opens.after (Opens.text _)
  | .unsupported kind span =>
      simp only [Stmt.steps, Stmt.frames]
      exact Opens.reject _

theorem lines_opens (body : List Stmt) {hoisted : List String} :
    Opens hoisted (stmtsFrames body) (lineSteps body) := by
  match body with
  | [] =>
      simp only [lineSteps, stmtsFrames]
      exact Opens.nil
  | stmt :: rest =>
      rw [lineSteps, stmtsFrames]
      exact (Opens.newline.before stmt.opens).append (lines_opens rest)

theorem decls_opens (kind : DeclKind) (span : Span) (decls : List Declarator)
    {hoisted : List String} : Opens hoisted (declFrames decls) (declSteps kind span decls) := by
  match decls with
  | [] =>
      simp only [declSteps, declFrames]
      exact Opens.reject _
  | .mk name none _ :: _ =>
      simp only [declSteps, declFrames]
      exact (Opens.text _).before (Opens.declare name)
  | .mk name (some init) _ :: _ =>
      simp only [declSteps, declFrames]
      exact (((Opens.text _).before (Opens.declare name)).before (Opens.text " = ")).before
        init.opens

theorem LoopInit.opens (init : LoopInit) (span : Span) {hoisted : List String} :
    Opens hoisted init.frames (init.steps span) := by
  match init with
  | .absent =>
      simp only [LoopInit.steps, LoopInit.frames]
      exact Opens.nil
  | .decl kind decls =>
      simp only [LoopInit.steps, LoopInit.frames]
      exact decls_opens kind span decls
  | .expr expr =>
      simp only [LoopInit.steps, LoopInit.frames]
      exact expr.opens

end

theorem Program.lines_opens (body : List Stmt) {hoisted : List String} :
    Opens hoisted (stmtsFrames body) (body.flatMap fun stmt => stmt.steps ++ [.newline]) := by
  induction body with
  | nil =>
      simp only [stmtsFrames]
      exact Opens.nil
  | cons stmt rest ih =>
      rw [List.flatMap_cons, stmtsFrames]
      exact (stmt.opens.after Opens.newline).append ih

theorem Program.opens (program : Program) : Opens [] program.frames [.framed program.steps] := by
  rw [Program.frames, Program.steps]
  refine Opens.framed ?_ ((Program.lines_opens program.body).body
    (hoistedNames_eraseDups program.body))
  rw [openingNames_hoist]
  intro name member
  exact List.mem_append_left _ (List.mem_eraseDups.mp member)

end Freshen
