import Freshen.Proofs.Trace

/-!
What a part of the steps writes, in the state in which the writing comes to it. What was written
before does not matter: names depend on the scopes alone, and line starts on the level.
-/

namespace Freshen

namespace Step

mutual

/-- The pieces that a step may write, whatever scopes it is carried out in: a name may have any
number, and a line any level. -/
def Yields : Step → List Piece → Prop
  | text content, pieces => pieces = [.text content]
  | newline, pieces => ∃ level, pieces = [.newline level]
  | bind _, pieces => pieces = []
  | declare name, pieces => ∃ number, pieces = [.declaration ⟨name, number⟩]
  | refer name, pieces =>
    pieces = [.free name] ∨ ∃ number, pieces = [.reference ⟨name, number⟩]
  | framed body, pieces => YieldsAll body pieces
  | braced body, pieces =>
    ∃ inside level, YieldsAll body inside ∧
      pieces = .openBrace :: (inside ++ [.newline level, .closeBrace])
  | reject _, _ => False

def YieldsAll : List Step → List Piece → Prop
  | [], pieces => pieces = []
  | step :: rest, pieces =>
    ∃ first second, Yields step first ∧ YieldsAll rest second ∧ pieces = first ++ second

end

variable {pieces : List Piece}

@[simp] theorem yieldsAll_nil : YieldsAll [] pieces ↔ pieces = [] := by
  rw [YieldsAll]

theorem yieldsAll_cons {step : Step} {rest : List Step} :
    YieldsAll (step :: rest) pieces ↔
      ∃ first second, Yields step first ∧ YieldsAll rest second ∧ pieces = first ++ second := by
  rw [YieldsAll]

theorem yieldsAll_singleton {step : Step} : YieldsAll [step] pieces ↔ Yields step pieces := by
  simp [yieldsAll_cons]

theorem yieldsAll_append {left right : List Step} :
    YieldsAll (left ++ right) pieces ↔
      ∃ first second, YieldsAll left first ∧ YieldsAll right second ∧ pieces = first ++ second := by
  induction left generalizing pieces with
  | nil => simp
  | cons step rest ih =>
      simp only [List.cons_append, yieldsAll_cons, ih]
      constructor
      · rintro ⟨first, _, step, ⟨second, third, rest, right, rfl⟩, rfl⟩
        exact ⟨first ++ second, third, ⟨first, second, step, rest, rfl⟩, right, by simp⟩
      · rintro ⟨_, third, ⟨first, second, step, rest, rfl⟩, right, rfl⟩
        exact ⟨first, second ++ third, step, ⟨second, third, rest, right, rfl⟩, by simp⟩

mutual

theorem run_yields (step : Step) {next : Nat} {writer result : Writer} {outer : List Nat}
    {frame : Nat} {bindings : List Binding}
    (tracked : writer.Tracked (frame :: outer) next bindings)
    (ran : run step writer = .ok () result) :
    ∃ pieces, Yields step pieces ∧ result.output.toList = writer.output.toList ++ pieces := by
  match step with
  | text content =>
      cases ran
      exact ⟨_, by rw [Yields], writer.output_write _⟩
  | newline =>
      cases ran
      exact ⟨_, by rw [Yields]; exact ⟨writer.level, rfl⟩, writer.output_write _⟩
  | bind name =>
      cases ran
      exact ⟨[], by rw [Yields], (List.append_nil _).symm⟩
  | declare name =>
      have same : (writer.declare name).2.write
          (.declaration (writer.context.declare name).1) = result := (EStateM.Result.ok.inj ran).2
      subst same
      refine ⟨_, ?_, Writer.output_write _ _⟩
      rw [Yields, (tracked.records.declare name).1]
      exact ⟨_, rfl⟩
  | refer name =>
      have same : writer.refer name = result := (EStateM.Result.ok.inj ran).2
      subst same
      rw [Writer.refer_eq_write tracked.records name]
      refine ⟨_, ?_, Writer.output_write _ _⟩
      rw [Yields]
      cases found : binder? bindings (frame :: outer) name with
      | none =>
          left
          simp [Occurrence.piece, Occurrence.site?, found]
      | some binder =>
          right
          simp only [Occurrence.piece, Occurrence.site?, found]
          exact ⟨_, rfl⟩
  | framed body =>
      obtain ⟨middle, inside, rfl⟩ := run_framed_eq_ok.mp ran
      obtain ⟨pieces, yields, output⟩ := runAll_yields body tracked.enter inside
      exact ⟨pieces, by rwa [Yields], output⟩
  | braced body =>
      obtain ⟨middle, inside, rfl⟩ := run_braced_eq_ok.mp ran
      have start : writer.openBrace.Tracked (frame :: outer) next bindings :=
        tracked.of_context rfl
      obtain ⟨pieces, yields, output⟩ := runAll_yields body start inside
      refine ⟨.openBrace :: (pieces ++ [.newline (middle.level - 1), .closeBrace]), ?_, ?_⟩
      · rw [Yields]
        exact ⟨pieces, _, yields, rfl⟩
      · rw [Writer.closeBrace, Writer.output_write, Writer.newline, Writer.output_write, output]
        simp [Writer.openBrace, Writer.output_write]
  | reject cause => cases ran

theorem runAll_yields (steps : List Step) {next : Nat} {writer result : Writer}
    {outer : List Nat} {frame : Nat} {bindings : List Binding}
    (tracked : writer.Tracked (frame :: outer) next bindings)
    (ran : runAll steps writer = .ok () result) :
    ∃ pieces, YieldsAll steps pieces ∧
      result.output.toList = writer.output.toList ++ pieces := by
  match steps with
  | [] =>
      cases ran
      exact ⟨[], yieldsAll_nil.mpr rfl, (List.append_nil _).symm⟩
  | step :: rest =>
      obtain ⟨middle, first, last⟩ := runAll_cons_eq_ok.mp ran
      obtain ⟨front, yields, output⟩ := run_yields step tracked first
      obtain ⟨back, yieldsRest, outputRest⟩ :=
        runAll_yields rest (run_traces step tracked first).tracked last
      refine ⟨front ++ back, yieldsAll_cons.mpr ⟨front, back, yields, yieldsRest, rfl⟩, ?_⟩
      rw [outputRest, output, List.append_assoc]

end

end Step

/-! The same steps behind another text write the same. -/

def Writer.behind (front : Array Piece) (writer : Writer) : Writer :=
  { writer with output := front ++ writer.output }

def Written.behind (front : Array Piece) : Written → Written
  | .ok _ writer => .ok () (writer.behind front)
  | .error cause writer => .error cause (writer.behind front)

theorem Writer.write_behind (writer : Writer) (front : Array Piece) (piece : Piece) :
    (writer.behind front).write piece = (writer.write piece).behind front := by
  simp [Writer.behind, Writer.write]

theorem Writer.refer_behind (writer : Writer) (front : Array Piece) (name : String) :
    (writer.behind front).refer name = (writer.refer name).behind front := by
  rw [Writer.refer, Writer.refer, Writer.behind]
  cases writer.context.resolve? name with
  | none => exact writer.write_behind front _
  | some minted => exact writer.write_behind front _

theorem Writer.openBrace_behind (writer : Writer) (front : Array Piece) :
    (writer.behind front).openBrace = writer.openBrace.behind front := by
  simp [Writer.openBrace, Writer.write, Writer.behind]

theorem Writer.closeBrace_behind (writer : Writer) (front : Array Piece) :
    (writer.behind front).closeBrace = writer.closeBrace.behind front := by
  simp [Writer.closeBrace, Writer.newline, Writer.write, Writer.behind]

namespace Step

mutual

theorem run_behind (step : Step) (front : Array Piece) (writer : Writer) :
    run step (writer.behind front) = (run step writer).behind front := by
  match step with
  | text content => exact congrArg (EStateM.Result.ok ()) (writer.write_behind front _)
  | newline => exact congrArg (EStateM.Result.ok ()) (writer.write_behind front _)
  | bind name => rfl
  | declare name =>
      exact congrArg (EStateM.Result.ok ()) ((writer.declare name).2.write_behind front _)
  | refer name => exact congrArg (EStateM.Result.ok ()) (writer.refer_behind front name)
  | framed body =>
      have inside := runAll_behind body front writer.enter
      rw [run, run, show (writer.behind front).enter = writer.enter.behind front from rfl, inside]
      cases runAll body writer.enter <;> rfl
  | braced body =>
      have inside := runAll_behind body front writer.openBrace
      rw [run, run, writer.openBrace_behind, inside]
      cases runAll body writer.openBrace with
      | ok _ middle => exact congrArg (EStateM.Result.ok ()) (middle.closeBrace_behind front)
      | error cause middle => rfl
  | reject cause => rfl

/-- What steps do does not depend on what was written before. -/
theorem runAll_behind (steps : List Step) (front : Array Piece) (writer : Writer) :
    runAll steps (writer.behind front) = (runAll steps writer).behind front := by
  match steps with
  | [] => rfl
  | step :: rest =>
      rw [runAll, runAll, run_behind step front writer]
      cases run step writer with
      | ok _ middle => exact runAll_behind rest front middle
      | error cause middle => rfl

end

end Step

def Writer.blank (writer : Writer) : Writer := { writer with output := #[] }

theorem Writer.behind_blank (writer : Writer) : writer.blank.behind writer.output = writer := by
  simp [Writer.behind, Writer.blank]

def Step.emit (steps : List Step) (writer : Writer) : Option (List Piece × Writer) :=
  match runAll steps writer.blank with
  | .ok _ stop => some (stop.output.toList, stop.blank)
  | .error .. => none

namespace Step

variable {steps : List Step} {writer stop : Writer} {pieces : List Piece}

theorem runAll_blank (steps : List Step) (writer : Writer) :
    runAll steps writer = (runAll steps writer.blank).behind writer.output := by
  rw [← runAll_behind, writer.behind_blank]

/-- Steps end from a state exactly if they do with nothing written, and what they write is added. -/
theorem emit_eq_some_of_runAll (ran : runAll steps writer = .ok () stop) :
    ∃ pieces, emit steps writer = some (pieces, stop.blank) ∧
      stop.output.toList = writer.output.toList ++ pieces := by
  rw [runAll_blank] at ran
  rw [emit]
  cases inside : runAll steps writer.blank with
  | error cause after =>
      rw [inside] at ran
      cases ran
  | ok _ after =>
      rw [inside] at ran
      cases ran
      exact ⟨_, rfl, by simp [Writer.behind]⟩

theorem runAll_of_emit_eq_some (emitted : emit steps writer = some (pieces, stop)) :
    ∃ after, runAll steps writer = .ok () after ∧ after.blank = stop ∧
      after.output.toList = writer.output.toList ++ pieces := by
  rw [emit] at emitted
  rw [runAll_blank]
  cases inside : runAll steps writer.blank with
  | error cause after =>
      rw [inside] at emitted
      cases emitted
  | ok _ after =>
      rw [inside] at emitted
      cases emitted
      exact ⟨_, rfl, rfl, by simp [Writer.behind]⟩

theorem emit_append (first second : List Step) (writer : Writer) :
    emit (first ++ second) writer =
      (emit first writer).bind fun (front, middle) =>
        (emit second middle).map fun (back, stop) => (front ++ back, stop) := by
  rw [emit, emit, runAll_append]
  cases runAll first writer.blank with
  | error cause middle => rfl
  | ok _ middle =>
      have again : middle.blank.blank = middle.blank := rfl
      simp only [Option.bind_some, emit, again]
      rw [runAll_blank second middle]
      cases runAll second middle.blank with
      | error cause stop => rfl
      | ok _ stop => simp [Written.behind, Writer.behind, Writer.blank]

theorem emit_append_eq_some {first second : List Step} :
    emit (first ++ second) writer = some (pieces, stop) ↔
      ∃ front middle back, emit first writer = some (front, middle) ∧
        emit second middle = some (back, stop) ∧ front ++ back = pieces := by
  rw [emit_append, Option.bind_eq_some_iff]
  constructor
  · rintro ⟨⟨front, middle⟩, first, rest⟩
    obtain ⟨⟨back, after⟩, second, same⟩ := Option.map_eq_some_iff.mp rest
    cases same
    exact ⟨front, middle, back, first, second, rfl⟩
  · rintro ⟨front, middle, back, first, second, rfl⟩
    exact ⟨(front, middle), first, Option.map_eq_some_iff.mpr ⟨_, second, rfl⟩⟩

theorem emit_text (content : String) (writer : Writer) :
    emit [.text content] writer = some ([.text content], writer.blank) := rfl

end Step

/-! Parts of steps, and the states in which the writing comes to them. -/

namespace Step

inductive Within (part : List Step) : List Step → Prop
  | here (before after : List Step) : Within part (before ++ (part ++ after))
  | framed (before : List Step) {body : List Step} (after : List Step) :
    Within part body → Within part (before ++ framed body :: after)
  | braced (before : List Step) {body : List Step} (after : List Step) :
    Within part body → Within part (before ++ braced body :: after)

/-- From a state on, the writing of steps comes to a part of them in another state. -/
inductive Reaches (part : List Step) : List Step → Writer → Writer → Prop
  | here {before : List Step} (after : List Step) {writer start : Writer} :
    runAll before writer = .ok () start → Reaches part (before ++ (part ++ after)) writer start
  | framed {before body : List Step} (after : List Step) {writer middle start : Writer} :
    runAll before writer = .ok () middle → Reaches part body middle.enter start →
    Reaches part (before ++ framed body :: after) writer start
  | braced {before body : List Step} (after : List Step) {writer middle start : Writer} :
    runAll before writer = .ok () middle → Reaches part body middle.openBrace start →
    Reaches part (before ++ braced body :: after) writer start

variable {part inner steps : List Step} {writer start stop : Writer}

namespace Within

theorem refl (steps : List Step) : Within steps steps := by
  have whole : Within steps ([] ++ (steps ++ [])) := .here [] []
  simpa using whole

theorem append (before : List Step) (within : Within part steps) (after : List Step) :
    Within part (before ++ (steps ++ after)) := by
  cases within with
  | here front back =>
      have moved : Within part ((before ++ front) ++ (part ++ (back ++ after))) := .here _ _
      simpa only [List.append_assoc] using moved
  | framed front back inside =>
      have moved := inside.framed (before ++ front) (back ++ after)
      simpa only [List.append_assoc, List.cons_append] using moved
  | braced front back inside =>
      have moved := inside.braced (before ++ front) (back ++ after)
      simpa only [List.append_assoc, List.cons_append] using moved

theorem left (within : Within part steps) (after : List Step) : Within part (steps ++ after) :=
  within.append [] after

theorem right (before : List Step) (within : Within part steps) :
    Within part (before ++ steps) := by
  simpa using within.append before []

theorem trans (inside : Within inner part) (within : Within part steps) : Within inner steps := by
  induction within with
  | here before after => exact inside.append before after
  | framed before after _ ih => exact ih.framed before after
  | braced before after _ ih => exact ih.braced before after

theorem parenthesized (within : Within part steps) : Within part (Freshen.parenthesized steps) :=
  (within.right _).left _

/-- What steps have among them is reached, if they end. -/
theorem reached (within : Within part steps) (ran : runAll steps writer = .ok () stop) :
    ∃ start, Reaches part steps writer start := by
  induction within generalizing writer stop with
  | here before after =>
      obtain ⟨middle, first, _⟩ := runAll_append_eq_ok.mp ran
      exact ⟨middle, .here after first⟩
  | framed before after _ ih =>
      obtain ⟨middle, first, rest⟩ := runAll_append_eq_ok.mp ran
      obtain ⟨_, frame, _⟩ := runAll_cons_eq_ok.mp rest
      obtain ⟨_, body, _⟩ := run_framed_eq_ok.mp frame
      obtain ⟨start, inside⟩ := ih body
      exact ⟨start, .framed after first inside⟩
  | braced before after _ ih =>
      obtain ⟨middle, first, rest⟩ := runAll_append_eq_ok.mp ran
      obtain ⟨_, braces, _⟩ := runAll_cons_eq_ok.mp rest
      obtain ⟨_, body, _⟩ := run_braced_eq_ok.mp braces
      obtain ⟨start, inside⟩ := ih body
      exact ⟨start, .braced after first inside⟩

end Within

namespace Reaches

theorem ends (reaches : Reaches part steps writer start) (ran : runAll steps writer = .ok () stop) :
    ∃ after, runAll part start = .ok () after := by
  induction reaches generalizing stop with
  | here after first =>
      obtain ⟨middle, again, rest⟩ := runAll_append_eq_ok.mp ran
      cases first.symm.trans again
      obtain ⟨last, inside, _⟩ := runAll_append_eq_ok.mp rest
      exact ⟨last, inside⟩
  | framed after first _ ih =>
      obtain ⟨middle, again, rest⟩ := runAll_append_eq_ok.mp ran
      cases first.symm.trans again
      obtain ⟨_, frame, _⟩ := runAll_cons_eq_ok.mp rest
      obtain ⟨_, body, _⟩ := run_framed_eq_ok.mp frame
      exact ih body
  | braced after first _ ih =>
      obtain ⟨middle, again, rest⟩ := runAll_append_eq_ok.mp ran
      cases first.symm.trans again
      obtain ⟨_, braces, _⟩ := runAll_cons_eq_ok.mp rest
      obtain ⟨_, body, _⟩ := run_braced_eq_ok.mp braces
      exact ih body

end Reaches

end Step

def Writer.Orderly (writer : Writer) : Prop :=
  ∃ frame outer next bindings, writer.Tracked (frame :: outer) next bindings

namespace Step

variable {part steps : List Step} {writer start stop : Writer}

theorem Reaches.orderly (reaches : Reaches part steps writer start) (orderly : writer.Orderly) :
    start.Orderly := by
  induction reaches with
  | here after first =>
      obtain ⟨frame, outer, next, bindings, tracked⟩ := orderly
      exact ⟨frame, outer, _, _, (runAll_traces _ tracked first).tracked⟩
  | framed after first _ ih =>
      obtain ⟨frame, outer, next, bindings, tracked⟩ := orderly
      exact ih ⟨_, _, _, _, (runAll_traces _ tracked first).tracked.enter⟩
  | braced after first _ ih =>
      obtain ⟨frame, outer, next, bindings, tracked⟩ := orderly
      exact ih ⟨frame, outer, _, _, (runAll_traces _ tracked first).tracked.of_context rfl⟩

theorem orderly_of_emit {pieces : List Piece} (orderly : writer.Orderly)
    (emitted : emit steps writer = some (pieces, stop)) : stop.Orderly := by
  obtain ⟨frame, outer, next, bindings, tracked⟩ := orderly
  obtain ⟨after, ran, rfl, _⟩ := runAll_of_emit_eq_some emitted
  exact ⟨frame, outer, _, _, (runAll_traces steps tracked ran).tracked.of_context rfl⟩

theorem yields_of_emit {pieces : List Piece} (orderly : writer.Orderly)
    (emitted : emit steps writer = some (pieces, stop)) : YieldsAll steps pieces := by
  obtain ⟨frame, outer, next, bindings, tracked⟩ := orderly
  obtain ⟨after, ran, _, output⟩ := runAll_of_emit_eq_some emitted
  obtain ⟨others, yields, output'⟩ := runAll_yields steps tracked ran
  rw [List.append_cancel_left (output.symm.trans output')]
  exact yields

end Step

def Program.Reaches (program : Program) (part : List Step) (start : Writer) : Prop :=
  Step.Reaches part program.steps {} start

theorem Program.Reaches.orderly {program : Program} {part : List Step} {start : Writer}
    (reaches : program.Reaches part start) : start.Orderly :=
  Step.Reaches.orderly reaches ⟨_, _, _, _, Writer.Tracked.initial⟩

end Freshen
