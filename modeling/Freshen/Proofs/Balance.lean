import Freshen.Proofs.Writing

/-!
What writing may do to the writer. However steps end, every frame that they enter has been left
again: the frames around the current one are untouched, the current one keeps its names and may have
new ones, and what was written stays. Steps that succeed also end on the level they started from.
-/

namespace Freshen

/-- The same frames are open, and the current one has at most gained bindings for names that it did
not bind, with numbers that were not given before. -/
structure Context.Grew (before after : Context) : Prop where
  enclosing : after.chain.enclosing = before.chain.enclosing
  parent : after.chain.current.parent = before.chain.current.parent
  count : before.count ≤ after.count
  gained : ∃ gained, after.chain.current.bindings = before.chain.current.bindings ++ gained ∧
    ∀ binding ∈ gained, before.chain.current.get? binding.1 = none ∧
      binding.2.base = binding.1 ∧ before.count ≤ binding.2.index ∧ binding.2.index < after.count

namespace Context.Grew

variable {first second third : Context} {name : String} {minted : Minted}

theorem refl (context : Context) : context.Grew context where
  enclosing := rfl
  parent := rfl
  count := Nat.le_refl _
  gained := ⟨[], by simp, by simp⟩

theorem kept (grew : first.Grew second) (bound : first.chain.current.get? name = some minted) :
    second.chain.current.get? name = some minted := by
  obtain ⟨gained, bindings, _⟩ := grew.gained
  rw [Frame.get?] at bound
  rw [Frame.get?, bindings, List.lookup_append, bound, Option.some_or]

theorem unbound (grew : first.Grew second) (absent : second.chain.current.get? name = none) :
    first.chain.current.get? name = none := by
  cases bound : first.chain.current.get? name with
  | none => rfl
  | some minted =>
      rw [grew.kept bound] at absent
      cases absent

theorem trans (left : first.Grew second) (right : second.Grew third) : first.Grew third where
  enclosing := right.enclosing.trans left.enclosing
  parent := right.parent.trans left.parent
  count := Nat.le_trans left.count right.count
  gained := by
    obtain ⟨early, earlyBindings, earlyNew⟩ := left.gained
    obtain ⟨late, lateBindings, lateNew⟩ := right.gained
    refine ⟨early ++ late, by rw [lateBindings, earlyBindings, List.append_assoc], ?_⟩
    intro binding member
    rcases List.mem_append.mp member with member | member
    · obtain ⟨fresh, base, low, high⟩ := earlyNew binding member
      exact ⟨fresh, base, low, Nat.lt_of_lt_of_le high right.count⟩
    · obtain ⟨fresh, base, low, high⟩ := lateNew binding member
      exact ⟨left.unbound fresh, base, Nat.le_trans left.count low, high⟩

theorem origin (grew : first.Grew second) (bound : second.chain.current.get? name = some minted) :
    first.chain.current.get? name = some minted ∨
      first.chain.current.get? name = none ∧ minted.base = name ∧
        first.count ≤ minted.index ∧ minted.index < second.count := by
  obtain ⟨gained, bindings, new⟩ := grew.gained
  rw [Frame.get?, bindings, List.lookup_append] at bound
  cases before : first.chain.current.get? name with
  | some older =>
      rw [Frame.get?] at before
      rw [before, Option.some_or] at bound
      exact Or.inl bound
  | none =>
      have absent := before
      rw [Frame.get?] at absent
      rw [absent, Option.none_or] at bound
      obtain ⟨front, back, split, _⟩ := List.lookup_eq_some_iff.mp bound
      obtain ⟨_, base, range⟩ := new (name, minted) (by simp [split])
      exact Or.inr ⟨rfl, base, range⟩

theorem declare (context : Context) (name : String) : context.Grew (context.declare name).2 := by
  cases bound : context.chain.current.get? name with
  | some minted =>
      rw [Context.declare, bound]
      exact refl context
  | none =>
      rw [Context.declare, bound]
      refine ⟨rfl, rfl, Nat.le_succ _, [(name, ⟨name, context.count⟩)], rfl, ?_⟩
      intro binding member
      obtain rfl := List.mem_singleton.mp member
      exact ⟨bound, rfl, Nat.le_refl _, Nat.lt_succ_self _⟩

theorem hoist (context : Context) (body : List Stmt) : context.Grew (context.hoist body) := by
  rw [Context.hoist]
  induction body.filterMap Stmt.hoistedName generalizing context with
  | nil => exact refl context
  | cons name rest ih => exact (declare context name).trans (ih _)

theorem exit? {inside : Context} (grew : first.enter.Grew inside) :
    inside.exit? = some { inside with chain := first.chain } := by
  have opened : inside.chain.enclosing = first.chain.frames := grew.enclosing
  rw [Context.exit?, Chain.pop?, opened]
  rfl

theorem exit {inside : Context} (grew : first.enter.Grew inside) :
    first.Grew { inside with chain := first.chain } where
  enclosing := rfl
  parent := rfl
  count := grew.count
  gained := ⟨[], by simp, by simp⟩

theorem depth (grew : first.Grew second) : second.chain.depth = first.chain.depth := by
  simp [Chain.depth, Chain.frames, grew.enclosing]

end Context.Grew

def Written.writer : Written → Writer
  | .ok _ writer | .error _ writer => writer

structure Writer.Keeps (before after : Writer) : Prop where
  context : before.context.Grew after.context
  output : before.output.toList <+: after.output.toList

namespace Writer.Keeps

variable {first second third inside : Writer}

theorem refl (writer : Writer) : writer.Keeps writer where
  context := Context.Grew.refl _
  output := List.prefix_rfl

theorem trans (left : first.Keeps second) (right : second.Keeps third) : first.Keeps third where
  context := left.context.trans right.context
  output := left.output.trans right.output

theorem of_output (same : second.context = first.context)
    (longer : first.output.toList <+: second.output.toList) : first.Keeps second where
  context := by
    rw [same]
    exact Context.Grew.refl _
  output := longer

theorem write (writer : Writer) (piece : Piece) : writer.Keeps (writer.write piece) := by
  refine of_output rfl ?_
  rw [Writer.output_write]
  exact List.prefix_append _ _

theorem declare (writer : Writer) (name : String) : writer.Keeps (writer.declare name).2 where
  context := Context.Grew.declare writer.context name
  output := List.prefix_rfl

theorem refer (writer : Writer) (name : String) : writer.Keeps (writer.refer name) := by
  rw [Writer.refer]
  split
  · exact write writer _
  · exact write writer _

theorem openBrace (writer : Writer) : writer.Keeps writer.openBrace :=
  of_output rfl (write writer .openBrace).output

theorem closeBrace (writer : Writer) : writer.Keeps writer.closeBrace := by
  refine of_output rfl ?_
  rw [Writer.closeBrace, Writer.newline, Writer.output_write, Writer.output_write,
    List.append_assoc]
  exact List.prefix_append _ _

theorem exit_context (keeps : first.enter.Keeps inside) :
    inside.exit.context = { inside.context with chain := first.context.chain } := by
  rw [Writer.exit, keeps.context.exit?, Option.getD_some]

theorem exit (keeps : first.enter.Keeps inside) : first.Keeps inside.exit := by
  refine ⟨?_, keeps.output⟩
  rw [keeps.exit_context]
  exact keeps.context.exit

theorem text (keeps : first.Keeps second) (style : Style) :
    ∃ more, style.render second.output.toList = style.render first.output.toList ++ more := by
  obtain ⟨rest, whole⟩ := keeps.output
  exact ⟨style.render rest, by rw [← whole, Style.render_append]⟩

end Writer.Keeps

namespace Step

mutual

theorem run_keeps (step : Step) (writer : Writer) :
    writer.Keeps (Written.writer (run step writer)) := by
  match step with
  | text content => exact Writer.Keeps.write writer _
  | newline => exact Writer.Keeps.write writer _
  | bind name => exact Writer.Keeps.declare writer name
  | declare name => exact (Writer.Keeps.declare writer name).trans (Writer.Keeps.write _ _)
  | refer name => exact Writer.Keeps.refer writer name
  | framed body =>
      have inside := runAll_keeps body writer.enter
      rw [run]
      cases ran : runAll body writer.enter with
      | ok _ after =>
          rw [ran] at inside
          exact inside.exit
      | error cause after =>
          rw [ran] at inside
          exact inside.exit
  | braced body =>
      have inside := (Writer.Keeps.openBrace writer).trans (runAll_keeps body writer.openBrace)
      rw [run]
      cases ran : runAll body writer.openBrace with
      | ok _ after =>
          rw [ran] at inside
          exact inside.trans (Writer.Keeps.closeBrace after)
      | error cause after =>
          rw [ran] at inside
          exact inside
  | reject cause => exact Writer.Keeps.refl writer

theorem runAll_keeps (steps : List Step) (writer : Writer) :
    writer.Keeps (Written.writer (runAll steps writer)) := by
  match steps with
  | [] => exact Writer.Keeps.refl writer
  | step :: rest =>
      have start := run_keeps step writer
      rw [runAll]
      cases ran : run step writer with
      | ok _ after =>
          rw [ran] at start
          exact start.trans (runAll_keeps rest after)
      | error cause after =>
          rw [ran] at start
          exact start

end

mutual

theorem run_level (step : Step) {writer after : Writer} (ran : run step writer = .ok () after) :
    after.level = writer.level := by
  match step with
  | text _ | newline | bind _ | declare _ =>
      cases ran
      rfl
  | refer name =>
      cases ran
      rw [Writer.refer]
      split
      · rfl
      · rfl
  | framed body =>
      rw [run] at ran
      cases inside : runAll body writer.enter with
      | ok _ middle =>
          rw [inside] at ran
          cases ran
          have level : middle.level = writer.enter.level := runAll_level body inside
          exact level
      | error cause middle =>
          rw [inside] at ran
          cases ran
  | braced body =>
      rw [run] at ran
      cases inside : runAll body writer.openBrace with
      | ok _ middle =>
          rw [inside] at ran
          cases ran
          have deeper : middle.level = writer.level + 1 := runAll_level body inside
          have level : middle.closeBrace.level = middle.level - 1 := rfl
          rw [level, deeper, Nat.add_sub_cancel]
      | error cause middle =>
          rw [inside] at ran
          cases ran
  | reject cause => cases ran

theorem runAll_level (steps : List Step) {writer after : Writer}
    (ran : runAll steps writer = .ok () after) : after.level = writer.level := by
  match steps with
  | [] =>
      cases ran
      rfl
  | step :: rest =>
      rw [runAll] at ran
      cases start : run step writer with
      | ok _ middle =>
          rw [start] at ran
          exact (runAll_level rest ran).trans (run_level step start)
      | error cause middle =>
          rw [start] at ran
          cases ran

end

end Step

def Writer.exit? (writer : Writer) : Option Writer :=
  writer.context.exit?.map fun context => { writer with context }

theorem Writer.Keeps.exit? {writer inside : Writer} (keeps : writer.enter.Keeps inside) :
    inside.exit? = some inside.exit := by
  rw [Writer.exit?, Writer.exit, keeps.context.exit?]
  rfl

namespace Step

mutual

/-- Carrying out a step under the assertion that no frame is left but one that was entered. There
is no outcome if that fails. -/
def asserted : Step → Writer → Option Written
  | framed body, writer =>
    match assertedAll body writer.enter with
    | some (.ok _ inside) => inside.exit?.map (.ok ())
    | some (.error cause inside) => inside.exit?.map (.error cause)
    | none => none
  | braced body, writer =>
    match assertedAll body writer.openBrace with
    | some (.ok _ inside) => some (.ok () inside.closeBrace)
    | some (.error cause inside) => some (.error cause inside)
    | none => none
  | text content, writer => some (run (text content) writer)
  | newline, writer => some (run newline writer)
  | bind name, writer => some (run (bind name) writer)
  | declare name, writer => some (run (declare name) writer)
  | refer name, writer => some (run (refer name) writer)
  | reject cause, writer => some (run (reject cause) writer)

def assertedAll : List Step → Writer → Option Written
  | [], writer => some (.ok () writer)
  | step :: rest, writer =>
    match asserted step writer with
    | some (.ok _ after) => assertedAll rest after
    | some (.error cause after) => some (.error cause after)
    | none => none

end

mutual

theorem asserted_eq_run (step : Step) (writer : Writer) :
    asserted step writer = some (run step writer) := by
  match step with
  | text _ | newline | bind _ | declare _ | refer _ | reject _ => rfl
  | framed body =>
      have inside := runAll_keeps body writer.enter
      rw [asserted, run, assertedAll_eq_runAll body writer.enter]
      cases ran : runAll body writer.enter with
      | ok _ after =>
          rw [ran] at inside
          have left : after.exit? = some after.exit := inside.exit?
          simp only [left, Option.map_some]
      | error cause after =>
          rw [ran] at inside
          have left : after.exit? = some after.exit := inside.exit?
          simp only [left, Option.map_some]
  | braced body =>
      rw [asserted, run, assertedAll_eq_runAll body writer.openBrace]
      cases runAll body writer.openBrace with
      | ok _ after => rfl
      | error cause after => rfl

theorem assertedAll_eq_runAll (steps : List Step) (writer : Writer) :
    assertedAll steps writer = some (runAll steps writer) := by
  match steps with
  | [] => rfl
  | step :: rest =>
      rw [assertedAll, runAll, asserted_eq_run step writer]
      cases run step writer with
      | ok _ after => exact assertedAll_eq_runAll rest after
      | error cause after => rfl

end

/-- How carrying out steps treats the writer. All but the last hold of every outcome. -/
structure Disciplined (steps : List Step) (writer after : Writer) : Prop where
  depth : after.context.chain.depth = writer.context.chain.depth
  /-- The frames around the current one have exactly the bindings they had. -/
  enclosing : after.context.chain.enclosing = writer.context.chain.enclosing
  kept : ∀ name minted, writer.context.chain.current.get? name = some minted →
    after.context.chain.current.get? name = some minted
  gained : ∀ name minted, after.context.chain.current.get? name = some minted →
    writer.context.chain.current.get? name = some minted ∨
      writer.context.chain.current.get? name = none ∧ minted.base = name ∧
        writer.context.count ≤ minted.index ∧ minted.index < after.context.count
  count : writer.context.count ≤ after.context.count
  pieces : writer.output.toList <+: after.output.toList
  text : ∀ style : Style, ∃ more,
    style.render after.output.toList = style.render writer.output.toList ++ more
  level : runAll steps writer = .ok () after → after.level = writer.level

theorem runAll_disciplined (steps : List Step) (writer : Writer) :
    Disciplined steps writer (Written.writer (runAll steps writer)) := by
  have keeps := runAll_keeps steps writer
  exact {
    depth := keeps.context.depth
    enclosing := keeps.context.enclosing
    kept := fun _ _ bound => keeps.context.kept bound
    gained := fun _ _ bound => keeps.context.origin bound
    count := keeps.context.count
    pieces := keeps.output
    text := keeps.text
    level := runAll_level steps }

end Step

/-- Writing a statement or an expression, from any writer, treats frames, numbers, output and level
as it should, and never leaves the outermost frame. A program that is written ends in the outermost
frame and on the outermost level. What it says of numbers is for fewer than 2^32 of them. -/
theorem writing_is_disciplined :
    (∀ (stmt : Stmt) (writer : Writer),
      Step.assertedAll stmt.steps writer = some (Step.runAll stmt.steps writer) ∧
        Step.Disciplined stmt.steps writer (Written.writer (Step.runAll stmt.steps writer))) ∧
      (∀ (expr : Expr) (writer : Writer),
        Step.assertedAll expr.steps writer = some (Step.runAll expr.steps writer) ∧
          Step.Disciplined expr.steps writer (Written.writer (Step.runAll expr.steps writer))) ∧
      ∀ (program : Program) (writer : Writer), Step.runAll program.steps {} = .ok () writer →
        writer.context.chain.depth = 1 ∧ writer.level = 0 := by
  refine ⟨?_, ?_, ?_⟩
  · intro stmt writer
    exact ⟨Step.assertedAll_eq_runAll _ _, Step.runAll_disciplined _ _⟩
  · intro expr writer
    exact ⟨Step.assertedAll_eq_runAll _ _, Step.runAll_disciplined _ _⟩
  · intro program writer ran
    have disciplined := Step.runAll_disciplined program.steps {}
    rw [ran] at disciplined
    exact ⟨disciplined.depth, Step.runAll_level program.steps ran⟩

theorem writing_is_disciplined_nested :
    let program : Program :=
      ⟨[.block [.block [.var .var [.mk "x" none {}] {}] {}, .expr (.ident "x" {}) {}] {}], {}⟩
    ∃ writer, Step.runAll program.steps {} = .ok () writer ∧
      writer.context.chain.depth = 1 ∧ writer.level = 0 := by
  intro program
  exact ⟨_, rfl, writing_is_disciplined.2.2 program _ rfl⟩

end Freshen
