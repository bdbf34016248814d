import Freshen.Proofs.Lowering
import Freshen.Proofs.Moments
import Freshen.Proofs.TreeMarks

/-!
The name `arguments` where nothing declares it. In JavaScript it then means the arguments of the
innermost function around it that is not an arrow. Arrows are written as functions, which have
arguments of their own: exactly the references inside an arrow, with no other function between,
change their owner.
-/

namespace Freshen

def FrameKind.lowered : FrameKind → FrameKind
  | plain => plain
  | function | arrow => function

/-! There is a kind for every frame, and lowering changes the kinds of arrows alone. -/

structure KindsLowered (names : List (List String)) (kinds others : List FrameKind) : Prop where
  length : kinds.length = names.length
  lowered : others = kinds.map FrameKind.lowered

namespace KindsLowered

variable {names more : List (List String)} {kinds others first second : List FrameKind}

theorem nil : KindsLowered [] [] [] := ⟨rfl, rfl⟩

theorem cons (kind : FrameKind) (own : List String) (inside : KindsLowered names kinds others) :
    KindsLowered (own :: names) (kind :: kinds) (kind.lowered :: others) :=
  ⟨congrArg (· + 1) inside.length, congrArg (kind.lowered :: ·) inside.lowered⟩

theorem append (left : KindsLowered names kinds others) (right : KindsLowered more first second) :
    KindsLowered (names ++ more) (kinds ++ first) (others ++ second) where
  length := by rw [List.length_append, List.length_append, left.length, right.length]
  lowered := by rw [List.map_append, left.lowered, right.lowered]

end KindsLowered

mutual

theorem Expr.kindsLowered (expr : Expr) :
    KindsLowered expr.frames expr.frameKinds expr.lowered.frameKinds := by
  match expr with
  | .null _ | .bool _ _ | .number _ _ | .string _ _ | .regex _ _ _ | .ident _ _
  | .unsupported _ _ =>
      simp only [Expr.lowered, Expr.frames, Expr.frameKinds]
      exact .nil
  | .array elements _ =>
      simp only [Expr.lowered, Expr.frames, Expr.frameKinds]
      exact elements_kindsLowered elements
  | .object properties _ =>
      simp only [Expr.lowered, Expr.frames, Expr.frameKinds]
      exact properties_kindsLowered properties
  | .function name params body _ _ =>
      simp only [Expr.lowered, Expr.frames, Expr.frameKinds]
      exact .cons .function _ (stmts_kindsLowered body)
  | .arrow params result _ _ =>
      simp only [Expr.lowered, Expr.frames, Expr.frameKinds, stmtsFrameKinds, Stmt.frameKinds,
        optionalFrameKinds, List.append_nil]
      exact .cons .arrow _ result.kindsLowered
  | .arrowBlock params body _ _ =>
      simp only [Expr.lowered, Expr.frames, Expr.frameKinds]
      exact .cons .arrow _ (stmts_kindsLowered body)
  | .unary _ arg _ | .update _ _ arg _ | .member arg _ _ =>
      simp only [Expr.lowered, Expr.frames, Expr.frameKinds]
      exact arg.kindsLowered
  | .binary _ left right _ | .assign _ left right _ | .index left right _ =>
      simp only [Expr.lowered, Expr.frames, Expr.frameKinds]
      exact left.kindsLowered.append right.kindsLowered
  | .conditional test consequent alternate _ =>
      simp only [Expr.lowered, Expr.frames, Expr.frameKinds]
      exact (test.kindsLowered.append consequent.kindsLowered).append alternate.kindsLowered
  | .sequence exprs _ =>
      simp only [Expr.lowered, Expr.frames, Expr.frameKinds]
      exact exprs_kindsLowered exprs
  | .call callee args _ | .new callee args _ =>
      simp only [Expr.lowered, Expr.frames, Expr.frameKinds]
      exact callee.kindsLowered.append (exprs_kindsLowered args)

theorem exprs_kindsLowered (exprs : List Expr) :
    KindsLowered (exprsFrames exprs) (exprsFrameKinds exprs)
      (exprsFrameKinds (loweredExprs exprs)) := by
  match exprs with
  | [] =>
      simp only [loweredExprs, exprsFrames, exprsFrameKinds]
      exact .nil
  | expr :: rest =>
      simp only [loweredExprs, exprsFrames, exprsFrameKinds]
      exact expr.kindsLowered.append (exprs_kindsLowered rest)

theorem optional_kindsLowered (optional : Option Expr) :
    KindsLowered (optionalFrames optional) (optionalFrameKinds optional)
      (optionalFrameKinds (loweredOptional optional)) := by
  match optional with
  | none =>
      simp only [loweredOptional, optionalFrames, optionalFrameKinds]
      exact .nil
  | some expr =>
      simp only [loweredOptional, optionalFrames, optionalFrameKinds]
      exact expr.kindsLowered

theorem elements_kindsLowered (elements : List (Option Expr)) :
    KindsLowered (elementFrames elements) (elementFrameKinds elements)
      (elementFrameKinds (loweredElements elements)) := by
  match elements with
  | [] =>
      simp only [loweredElements, elementFrames, elementFrameKinds]
      exact .nil
  | element :: rest =>
      simp only [loweredElements, elementFrames, elementFrameKinds]
      exact (optional_kindsLowered element).append (elements_kindsLowered rest)

theorem properties_kindsLowered (properties : List Property) :
    KindsLowered (propertyFrames properties) (propertyFrameKinds properties)
      (propertyFrameKinds (loweredProperties properties)) := by
  match properties with
  | [] =>
      simp only [loweredProperties, propertyFrames, propertyFrameKinds]
      exact .nil
  | property :: rest =>
      simp only [loweredProperties, propertyFrames, propertyFrameKinds]
      exact property.kindsLowered.append (properties_kindsLowered rest)

theorem Property.kindsLowered (property : Property) :
    KindsLowered property.frames property.frameKinds property.lowered.frameKinds := by
  match property with
  | .named _ value _ =>
      simp only [Property.lowered, Property.frames, Property.frameKinds]
      exact value.kindsLowered
  | .computed key value _ =>
      simp only [Property.lowered, Property.frames, Property.frameKinds]
      exact key.kindsLowered.append value.kindsLowered

theorem Stmt.kindsLowered (stmt : Stmt) :
    KindsLowered stmt.frames stmt.frameKinds stmt.lowered.frameKinds := by
  match stmt with
  | .var _ decls _ =>
      simp only [Stmt.lowered, Stmt.frames, Stmt.frameKinds]
      exact decls_kindsLowered decls
  | .function _ _ body _ _ =>
      simp only [Stmt.lowered, Stmt.frames, Stmt.frameKinds]
      exact .cons .function _ (stmts_kindsLowered body)
  | .block body _ =>
      simp only [Stmt.lowered, Stmt.frames, Stmt.frameKinds]
      exact .cons .plain _ (stmts_kindsLowered body)
  | .cond test consequent alternate _ =>
      simp only [Stmt.lowered, Stmt.frames, Stmt.frameKinds]
      exact (test.kindsLowered.append consequent.kindsLowered).append
        (alternate_kindsLowered alternate)
  | .loop init test update body _ =>
      simp only [Stmt.lowered, Stmt.frames, Stmt.frameKinds]
      exact .cons .plain _ (((init.kindsLowered.append (optional_kindsLowered test)).append
        (optional_kindsLowered update)).append body.kindsLowered)
  | .whileLoop test body _ =>
      simp only [Stmt.lowered, Stmt.frames, Stmt.frameKinds]
      exact test.kindsLowered.append body.kindsLowered
  | .doWhile body test _ =>
      simp only [Stmt.lowered, Stmt.frames, Stmt.frameKinds]
      exact body.kindsLowered.append test.kindsLowered
  | .ret arg _ =>
      simp only [Stmt.lowered, Stmt.frames, Stmt.frameKinds]
      exact optional_kindsLowered arg
  | .throw arg _ | .expr arg _ =>
      simp only [Stmt.lowered, Stmt.frames, Stmt.frameKinds]
      exact arg.kindsLowered
  | .exitLoop _ | .nextLoop _ | .empty _ | .unsupported _ _ =>
      simp only [Stmt.lowered, Stmt.frames, Stmt.frameKinds]
      exact .nil

theorem alternate_kindsLowered (alternate : Option Stmt) :
    KindsLowered (alternateFrames alternate) (alternateFrameKinds alternate)
      (alternateFrameKinds (loweredAlternate alternate)) := by
  match alternate with
  | none =>
      simp only [loweredAlternate, alternateFrames, alternateFrameKinds]
      exact .nil
  | some stmt =>
      simp only [loweredAlternate, alternateFrames, alternateFrameKinds]
      exact stmt.kindsLowered

theorem stmts_kindsLowered (body : List Stmt) :
    KindsLowered (stmtsFrames body) (stmtsFrameKinds body)
      (stmtsFrameKinds (loweredStmts body)) := by
  match body with
  | [] =>
      simp only [loweredStmts, stmtsFrames, stmtsFrameKinds]
      exact .nil
  | stmt :: rest =>
      simp only [loweredStmts, stmtsFrames, stmtsFrameKinds]
      exact stmt.kindsLowered.append (stmts_kindsLowered rest)

theorem decls_kindsLowered (decls : List Declarator) :
    KindsLowered (declFrames decls) (declFrameKinds decls)
      (declFrameKinds (loweredDecls decls)) := by
  match decls with
  | [] =>
      simp only [loweredDecls, declFrames, declFrameKinds]
      exact .nil
  | .mk _ init _ :: _ =>
      simp only [loweredDecls, declFrames, declFrameKinds]
      exact optional_kindsLowered init

theorem LoopInit.kindsLowered (init : LoopInit) :
    KindsLowered init.frames init.frameKinds init.lowered.frameKinds := by
  match init with
  | .absent =>
      simp only [LoopInit.lowered, LoopInit.frames, LoopInit.frameKinds]
      exact .nil
  | .decl _ decls =>
      simp only [LoopInit.lowered, LoopInit.frames, LoopInit.frameKinds]
      exact decls_kindsLowered decls
  | .expr expr =>
      simp only [LoopInit.lowered, LoopInit.frames, LoopInit.frameKinds]
      exact expr.kindsLowered

end

namespace Program

/-- The function whose arguments `arguments` means where nothing declares it. -/
def argumentsOwner? (program : Program) (use : Occurrence) : Option Nat :=
  use.frames.find? (program.frameKind · == .function)

structure IsImplicitArguments (program : Program) (use : Occurrence) : Prop where
  name : use.name = "arguments"
  refers : use.declares = false
  free : ∀ frame ∈ use.frames, (frame, "arguments") ∉ program.sites

/-- Inside an arrow, and in no other function inside that arrow. -/
def InArrow (program : Program) (use : Occurrence) : Prop :=
  ∃ inner arrow outer, use.frames = inner ++ arrow :: outer ∧
    program.frameKind arrow = .arrow ∧ ∀ frame ∈ inner, program.frameKind frame ≠ .function

variable {program : Program}

theorem length_frameKinds (program : Program) :
    program.frameKinds.length = program.frames.length :=
  congrArg (· + 1) (stmts_kindsLowered program.body).length

theorem frameKind_lowered (program : Program) (frame : Nat) :
    program.lowered.frameKind frame = (program.frameKind frame).lowered := by
  have kinds : program.lowered.frameKinds = program.frameKinds.map FrameKind.lowered :=
    congrArg (FrameKind.plain :: ·) (stmts_kindsLowered program.body).lowered
  rw [frameKind, frameKind, kinds, List.getElem?_map]
  cases program.frameKinds[frame]? <;> rfl

theorem occurrences_lowered (program : Program) :
    program.lowered.occurrences = program.occurrences := by
  rw [← program.traced.written, ← program.lowered.traced.written, program.relaid.eventsAll_eq]

theorem names_lowered {writer other : Writer} (ran : Step.runAll program.steps {} = .ok () writer)
    (lowered : Step.runAll program.lowered.steps {} = .ok () other) :
    other.names = writer.names := by
  rw [names_eq ran, names_eq lowered, events_eq, events_eq, program.relaid.eventsAll_eq]

theorem inArrow_cons {name : String} {frame : Nat} {outer : List Nat} {declares : Bool} :
    program.InArrow ⟨name, frame :: outer, declares⟩ ↔
      program.frameKind frame = .arrow ∨
        program.frameKind frame ≠ .function ∧ program.InArrow ⟨name, outer, declares⟩ := by
  constructor
  · rintro ⟨inner, arrow, rest, same, opens, between⟩
    rcases inner with _ | ⟨first, inner⟩
    · obtain ⟨rfl, rfl⟩ := List.cons.inj same
      exact Or.inl opens
    · obtain ⟨rfl, split⟩ := List.cons.inj same
      obtain ⟨passed, between⟩ := List.forall_mem_cons.mp between
      exact Or.inr ⟨passed, inner, arrow, rest, split, opens, between⟩
  · rintro (opens | ⟨passed, inner, arrow, rest, split, opens, between⟩)
    · exact ⟨[], frame, outer, rfl, opens, nofun⟩
    · exact ⟨frame :: inner, arrow, rest, congrArg (frame :: ·) split, opens,
        List.forall_mem_cons.mpr ⟨passed, between⟩⟩

/-- The innermost function that is written around a reference is the innermost one that is no arrow,
unless an arrow is nearer. -/
theorem argumentsOwner?_lowered_eq_iff (program : Program) (use : Occurrence) :
    program.lowered.argumentsOwner? use = program.argumentsOwner? use ↔ ¬ program.InArrow use := by
  obtain ⟨name, frames, declares⟩ := use
  rw [argumentsOwner?, argumentsOwner?]
  simp only [frameKind_lowered]
  induction frames with
  | nil => simp [InArrow]
  | cons frame outer ih =>
      rw [inArrow_cons]
      cases kind : program.frameKind frame with
      | plain =>
          rw [List.find?_cons_of_neg (by rw [kind]; decide),
            List.find?_cons_of_neg (by rw [kind]; decide), ih]
          simp
      | function =>
          rw [List.find?_cons_of_pos (by rw [kind]; decide),
            List.find?_cons_of_pos (by rw [kind]; decide)]
          simp
      | arrow =>
          rw [List.find?_cons_of_pos (by rw [kind]; decide),
            List.find?_cons_of_neg (by rw [kind]; decide)]
          refine iff_of_false ?_ (not_not_intro (Or.inl rfl))
          -- the other side finds no arrow
          intro same
          have found := List.find?_some same.symm
          rw [kind] at found
          cases found

theorem piece_of_implicit {writer : Writer} (ran : Step.runAll program.steps {} = .ok () writer)
    {use : Occurrence × Piece} (listed : use ∈ program.occurrences.zip writer.names)
    (implicit : program.IsImplicitArguments use.1) : use.2 = .free "arguments" := by
  rw [zip_names ran] at listed
  obtain ⟨moment, member, rfl⟩ := List.mem_map.mp listed
  have unbound :
      binder? moment.declared moment.occurrence.frames moment.occurrence.name = none := by
    rw [binder?, List.find?_eq_none]
    intro frame around declared
    apply implicit.free frame around
    rw [← implicit.name]
    exact program.mem_bindings.mp ((prefix_of_moment member).subset (of_decide_eq_true declared))
  have refers : moment.occurrence.declares = false := implicit.refers
  have piece := Occurrence.piece_of_reference (prefix_of_moment member) refers
  rw [unbound] at piece
  rw [writtenAt, piece]
  exact congrArg Piece.free implicit.name

end Program

/-- A program has the text of the program without arrows, but for line breaks. The name `arguments`
stands as it is where nothing declares it, and the functions of that text give it the same owner
exactly if it is not inside an arrow with no other function between. -/
theorem arguments_owner_kept_iff (program : Program) (style : Style) (text : String)
    (written : program.transform style = .ok text) :
    ∃ writer other, Step.runAll program.steps {} = .ok () writer ∧
      text = style.render writer.output.toList ∧
      Step.runAll program.lowered.steps {} = .ok () other ∧
      style.flat writer.output.toList = style.flat other.output.toList ∧
      other.names = writer.names ∧
      program.lowered.occurrences = program.occurrences ∧
      writer.names.length = program.occurrences.length ∧
      program.frameKinds.length = program.frames.length ∧
      (∀ frame, program.lowered.frameKind frame ≠ .arrow) ∧
      ∀ use ∈ program.occurrences.zip writer.names, program.IsImplicitArguments use.1 →
        use.2.render style = "arguments" ∧
        (program.lowered.argumentsOwner? use.1 = program.argumentsOwner? use.1 ↔
          ¬ program.InArrow use.1) := by
  obtain ⟨writer, ran, rendered⟩ := program.written_of_transform written
  have alike := program.lowered_alike style
  rw [ran] at alike
  generalize result : Step.runAll program.lowered.steps {} = lowered at alike
  cases alike with
  | @ok _ other alike =>
      have arrowless : ∀ frame, program.lowered.frameKind frame ≠ .arrow := by
        intro frame
        rw [program.frameKind_lowered]
        cases program.frameKind frame <;> decide
      refine ⟨writer, other, ran, rendered, rfl, alike.flat, Program.names_lowered ran result,
        program.occurrences_lowered, Program.length_names ran, program.length_frameKinds,
        arrowless, ?_⟩
      intro use listed implicit
      rw [Program.piece_of_implicit ran listed implicit]
      exact ⟨rfl, program.argumentsOwner?_lowered_eq_iff use.1⟩

theorem arguments_owner_kept_iff_nested :
    let arguments : Expr := .ident "arguments" {}
    let program : Program := ⟨[.function (some "f") [] [.ret (some (.array [some arguments,
      some (.arrow [] (.function none [] [.ret (some arguments) {}] {} {}) {} {}),
      some (.arrow [] arguments {} {})] {})) {}] {} {}], {}⟩
    let own : Occurrence := ⟨"arguments", [3, 2, 1, 0], false⟩
    let taken : Occurrence := ⟨"arguments", [4, 1, 0], false⟩
    program.transform {} = .ok ("function f$0() \x7b\n  return [arguments, (function() " ++
      "\x7b return (function() \x7b\n    return arguments;\n  \x7d); \x7d), (function() " ++
      "\x7b return arguments; \x7d)];\n\x7d\n") ∧
      program.lowered.argumentsOwner? own = program.argumentsOwner? own ∧
      program.lowered.argumentsOwner? taken ≠ program.argumentsOwner? taken := by
  intro arguments program own taken
  have written : program.transform {} = .ok ("function f$0() \x7b\n  return [arguments, " ++
      "(function() \x7b return (function() \x7b\n    return arguments;\n  \x7d); \x7d), " ++
      "(function() \x7b return arguments; \x7d)];\n\x7d\n") := rfl
  obtain ⟨writer, _, ran, _, _, _, _, _, _, _, _, kept⟩ :=
    arguments_owner_kept_iff program {} _ written
  have names : writer.names = [.declaration ⟨"f", 0⟩, .free "arguments", .free "arguments",
      .free "arguments"] := by
    have same := (EStateM.Result.ok.inj ran).2
    rw [← same]
    rfl
  have zip : program.occurrences.zip writer.names = [(⟨"f", [0], true⟩, .declaration ⟨"f", 0⟩),
      (⟨"arguments", [1, 0], false⟩, .free "arguments"), (own, .free "arguments"),
      (taken, .free "arguments")] := by
    rw [names]
    rfl
  have free (frame : Nat) : (frame, "arguments") ∉ program.sites := by
    have sites : program.sites = [(0, "f")] := rfl
    simp [sites]
  refine ⟨written, ?_, ?_⟩
  · refine (kept (own, .free "arguments") (by simp [zip])
      ⟨rfl, rfl, fun frame _ => free frame⟩).2.mpr ?_
    rw [Program.inArrow_cons]
    exact not_or.mpr ⟨nofun, fun inside => inside.1 rfl⟩
  · intro same
    exact (kept (taken, .free "arguments") (by simp [zip])
      ⟨rfl, rfl, fun frame _ => free frame⟩).2.mp same ⟨[], 4, [1, 0], rfl, rfl, nofun⟩

/-- The function that an arrow becomes takes the `arguments` of the function around it. -/
theorem arguments_taken_by_arrow :
    let program : Program := ⟨[.function (some "f") []
      [.ret (some (.arrow [] (.ident "arguments" {}) {} {})) {}] {} {}], {}⟩
    let use : Occurrence := ⟨"arguments", [2, 1, 0], false⟩
    program.transform {} =
        .ok "function f$0() \x7b\n  return (function() \x7b return arguments; \x7d);\n\x7d\n" ∧
      use ∈ program.occurrences ∧ program.IsImplicitArguments use ∧ program.InArrow use ∧
      program.argumentsOwner? use = some 1 ∧ program.lowered.argumentsOwner? use = some 2 := by
  intro program use
  have sites : program.sites = [(0, "f")] := rfl
  exact ⟨rfl, by decide, ⟨rfl, rfl, by simp [sites]⟩, ⟨[], 2, [1, 0], rfl, rfl, nofun⟩, rfl, rfl⟩

end Freshen
