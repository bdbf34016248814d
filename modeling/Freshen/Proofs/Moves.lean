import Freshen.Proofs.FrameTable
import Freshen.Proofs.Writing

/-!
Writing with scopes and without, side by side. Steps are carried out by a writer that knows the
bindings declared so far, and other steps, whose names are finished, by one that keeps no scopes;
both write the same or are broken off for one cause.
-/

namespace Freshen

/-- Writing `pieces` took a writer to another one, with these bindings declared. -/
structure Wrote (style : Style) (frames : List Nat) (after : List Binding) (writer : Writer)
    (pieces : List Piece) (result : Writer) : Prop where
  records : result.context.Records frames after
  level : result.level = writer.level
  output : style.render result.output.toList =
    style.render writer.output.toList ++ style.render pieces

/-- Where the `before` bindings are declared, carrying out the steps writes what the plain steps
write without scopes, and declares what is then `after`; or both are rejected for one cause. -/
def Moves (style : Style) (frames : List Nat) (before : List Binding) (steps : List Step)
    (after : List Binding) (plain : List Step) : Prop :=
  ∀ writer : Writer, writer.context.Records frames before →
    (∃ result pieces, Step.runAll steps writer = .ok () result ∧
      Step.plainAll writer.level plain = .ok pieces ∧
      Wrote style frames after writer pieces result) ∨
    ∃ cause result, Step.runAll steps writer = .error cause result ∧
      Step.plainAll writer.level plain = .error cause

namespace Moves

variable {style : Style} {frames : List Nat} {frame : Nat} {before between after : List Binding}

theorem nil : Moves style frames before [] before [] := by
  intro writer records
  exact Or.inl ⟨writer, [], rfl, rfl, records, rfl, by simp⟩

theorem append {first second plainFirst plainSecond : List Step}
    (left : Moves style frames before first between plainFirst)
    (right : Moves style frames between second after plainSecond) :
    Moves style frames before (first ++ second) after (plainFirst ++ plainSecond) := by
  intro writer records
  rw [Step.runAll_append, Step.plainAll_append]
  rcases left writer records with
    ⟨middle, pieces, ran, printed, wrote⟩ | ⟨cause, middle, ran, printed⟩
  · rw [ran, printed]
    rcases right middle wrote.records with
      ⟨result, more, ran', printed', wrote'⟩ | ⟨cause, result, ran', printed'⟩
    · rw [wrote.level] at printed'
      refine Or.inl ⟨result, pieces ++ more, ran', ?_, wrote'.records, ?_, ?_⟩
      · rw [printed']
        rfl
      · rw [wrote'.level, wrote.level]
      · rw [wrote'.output, wrote.output, Style.render_append, String.append_assoc]
    · rw [wrote.level] at printed'
      refine Or.inr ⟨cause, result, ran', ?_⟩
      rw [printed']
      rfl
  · rw [ran, printed]
    exact Or.inr ⟨cause, middle, rfl, rfl⟩

theorem step {step plain : Step}
    (wrote : ∀ writer : Writer, writer.context.Records frames before →
      ∃ result pieces, Step.run step writer = .ok () result ∧
        Step.plain writer.level plain = .ok pieces ∧
        Wrote style frames after writer pieces result) :
    Moves style frames before [step] after [plain] := by
  intro writer records
  rw [Step.runAll_singleton, Step.plainAll_singleton]
  exact Or.inl (wrote writer records)

theorem text (content : String) :
    Moves style frames before [.text content] before [.text content] := by
  apply step
  intro writer records
  refine ⟨writer.write (.text content), [.text content], rfl, rfl, records, rfl, ?_⟩
  rw [Writer.output_write, Style.render_append]

theorem newline : Moves style frames before [.newline] before [.newline] := by
  apply step
  intro writer records
  refine ⟨writer.newline, [.newline writer.level], rfl, rfl, records, rfl, ?_⟩
  rw [Writer.newline, Writer.output_write, Style.render_append]

theorem bind (name other : String) :
    Moves style (frame :: frames) before [.bind name] (register before (frame, name))
      [.bind other] := by
  apply step
  intro writer records
  exact ⟨(writer.declare name).2, [], rfl, rfl, (records.declare name).2, rfl, by
    simp [Writer.declare]⟩

theorem declare (name : String) :
    Moves style (frame :: frames) before [.declare name] (register before (frame, name))
      [.declare ((mintedFor (register before (frame, name)) (frame, name)).text
        style.separator)] := by
  apply step
  intro writer records
  obtain ⟨minted, declared⟩ := records.declare name
  refine ⟨(writer.declare name).2.write (.declaration (writer.context.declare name).1), _, rfl, rfl,
    declared, rfl, ?_⟩
  rw [Writer.output_write, Style.render_append, Style.render_singleton, Style.render_singleton,
    minted]
  rfl

theorem refer (name : String) :
    Moves style frames before [.refer name] before
      [.refer (match binder? before frames name with
        | some frame => (mintedFor before (frame, name)).text style.separator
        | none => name)] := by
  apply step
  intro writer records
  have meaning := records.resolve? name
  cases found : binder? before frames name with
  | some frame =>
      rw [found] at meaning
      refine ⟨writer.write (.reference (mintedFor before (frame, name))), _, ?_, rfl, records, rfl,
        ?_⟩
      · rw [Step.run, Writer.refer, meaning]
        rfl
      · rw [Writer.output_write, Style.render_append, Style.render_singleton,
          Style.render_singleton]
        rfl
  | none =>
      rw [found] at meaning
      refine ⟨writer.write (.free name), _, ?_, rfl, records, rfl, ?_⟩
      · rw [Step.run, Writer.refer, meaning]
        rfl
      · rw [Writer.output_write, Style.render_append, Style.render_singleton,
          Style.render_singleton]
        rfl

theorem reject (cause : Unsupported) :
    Moves style frames before [.reject cause] after [.reject cause] := by
  intro writer _
  exact Or.inr ⟨cause, writer, rfl, rfl⟩

theorem framed {body plain : List Step} {number : Nat}
    (inside : Moves style (number :: frame :: frames) before body after plain)
    (outside : number ∉ frame :: frames) (unused : ∀ name, (number, name) ∉ before) :
    Moves style (frame :: frames) before [.framed body] after [.framed plain] := by
  intro writer records
  rw [Step.runAll_singleton, Step.plainAll_singleton, Step.run, Step.plain]
  rcases inside writer.enter (records.enter outside unused) with
    ⟨result, pieces, ran, printed, wrote⟩ | ⟨cause, result, ran, printed⟩
  · rw [ran]
    exact Or.inl ⟨result.exit, pieces, rfl, printed, wrote.records.exit, wrote.level, wrote.output⟩
  · rw [ran]
    exact Or.inr ⟨cause, result.exit, rfl, printed⟩

theorem braced {body plain : List Step} (inside : Moves style frames before body after plain) :
    Moves style frames before [.braced body] after [.braced plain] := by
  intro writer records
  rw [Step.runAll_singleton, Step.plainAll_singleton, Step.run, Step.plain]
  rcases inside writer.openBrace records with
    ⟨result, pieces, ran, printed, wrote⟩ | ⟨cause, result, ran, printed⟩
  · have level : result.level - 1 = writer.level := by
      rw [wrote.level]
      rfl
    rw [ran, show writer.level + 1 = writer.openBrace.level from rfl, printed]
    refine Or.inl ⟨result.closeBrace, _, rfl, rfl, wrote.records, level, ?_⟩
    have closed : result.closeBrace.output.toList =
        result.output.toList ++ [.newline writer.level, .closeBrace] := by
      simp [Writer.closeBrace, Writer.newline, Writer.write, level]
    have opened : writer.openBrace.output.toList = writer.output.toList ++ [.openBrace] := by
      simp [Writer.openBrace, Writer.write]
    rw [closed, Style.render_append, wrote.output, opened]
    simp only [Style.render_append, String.append_assoc]
  · rw [ran, show writer.level + 1 = writer.openBrace.level from rfl, printed]
    exact Or.inr ⟨cause, result, rfl, rfl⟩

theorem parenthesized {steps plain : List Step}
    (inside : Moves style frames before steps after plain) :
    Moves style frames before (Freshen.parenthesized steps) after
      (Freshen.parenthesized plain) :=
  ((text "(").append inside).append (text ")")

section Opening

variable {table : List (List String)} {style : Style} {frames : List Nat}
  {done : List (List String)} {all : List String}

theorem declareOpening (seen : List String) (name : String)
    (placed : done ++ [all.eraseDups] <+: table) (part : seen ++ [name] <+: all) :
    Moves style (done.length :: frames) (bindingsFrom 0 (done ++ [seen.eraseDups]))
      [.declare name] (bindingsFrom 0 (done ++ [(seen ++ [name]).eraseDups]))
      [.declare (Occurrence.freshName table style.separator
        ⟨name, done.length :: frames, true⟩)] := by
  have moves : Moves style (done.length :: frames) (bindingsFrom 0 (done ++ [seen.eraseDups]))
      [.declare name] _ _ := Moves.declare name
  rw [register_bindings] at moves
  have present : (done.length, name) ∈ bindingsFrom 0 (done ++ [(seen ++ [name]).eraseDups]) := by
    simp [bindingsFrom_append, bindingsFrom]
  rw [mintedFor_declared (bindingsFrom_opening placed part) present] at moves
  exact moves

theorem bindOpening (seen : List String) (name other : String) :
    Moves style (done.length :: frames) (bindingsFrom 0 (done ++ [seen.eraseDups]))
      [.bind name] (bindingsFrom 0 (done ++ [(seen ++ [name]).eraseDups])) [.bind other] := by
  have moves : Moves style (done.length :: frames) (bindingsFrom 0 (done ++ [seen.eraseDups]))
      [.bind name] _ _ := Moves.bind name other
  rwa [register_bindings] at moves

theorem nameOpening (name : Option String) (seen : List String)
    (placed : done ++ [all.eraseDups] <+: table) (part : seen ++ name.toList <+: all) :
    Moves style (done.length :: frames) (bindingsFrom 0 (done ++ [seen.eraseDups]))
      (functionHead name) (bindingsFrom 0 (done ++ [(seen ++ name.toList).eraseDups]))
      (functionHead (renameName (Occurrence.freshName table style.separator)
        (done.length :: frames) name)) := by
  cases name with
  | none => simpa [functionHead, renameName] using text "function"
  | some name => exact (text "function ").append (declareOpening seen name placed part)

theorem paramsOpening (params : List Param) (seen : List String)
    (placed : done ++ [all.eraseDups] <+: table) (part : seen ++ params.map Param.name <+: all) :
    Moves style (done.length :: frames) (bindingsFrom 0 (done ++ [seen.eraseDups]))
      (paramSteps params)
      (bindingsFrom 0 (done ++ [(seen ++ params.map Param.name).eraseDups]))
      (paramSteps (renameParams (Occurrence.freshName table style.separator)
        (done.length :: frames) params)) := by
  match params with
  | [] => simpa [paramSteps, renameParams] using nil
  | [param] => exact declareOpening seen param.name placed part
  | param :: second :: rest =>
      have whole : seen ++ (param :: second :: rest).map Param.name =
          seen ++ [param.name] ++ (second :: rest).map Param.name := by simp
      rw [whole] at part ⊢
      have shorter : seen ++ [param.name] <+: all := (List.prefix_append _ _).trans part
      exact ((declareOpening seen param.name placed shorter).append (text ", ")).append
        (paramsOpening (second :: rest) (seen ++ [param.name]) placed part)

theorem hoistOpening (body : List Stmt) (other seen : List String)
    (same : other.length = (hoistedNames body).length) :
    Moves style (done.length :: frames) (bindingsFrom 0 (done ++ [seen.eraseDups]))
      (hoistSteps body) (bindingsFrom 0 (done ++ [(seen ++ hoistedNames body).eraseDups]))
      (other.map Step.bind) := by
  rw [hoistSteps, ← hoistedNames]
  generalize hoistedNames body = names at same
  induction names generalizing seen other with
  | nil =>
      have empty : other = [] := by simpa using same
      simpa [empty] using nil
  | cons name rest ih =>
      cases other with
      | nil => simp at same
      | cons first other =>
          have remaining := ih other (seen ++ [name]) (by simpa using same)
          simpa using (bindOpening seen name first).append remaining

end Opening

end Moves

end Freshen
