import Freshen.Proofs.Moments
import Freshen.Proofs.OwnNames

/-!
How far hoisting reaches. What the statements of a list declare themselves is bound before they are
written, and references in their frame mean the same wherever they stand. A declaration that is the
branch of an `if` or the body of a loop is bound only where it stands, and divides the references in
its frame into those before it and those behind it.
-/

namespace Freshen

structure Occurrence.RefersIn (occurrence : Occurrence) (frame : Nat) (name : String) : Prop where
  refers : occurrence.declares = false
  name : occurrence.name = name
  innermost : occurrence.frames.head? = some frame

namespace Program

/-- The first declaration of the name in the frame stands between two places of the text, and by the
tree the frame does not have the name. -/
def DividedBy (program : Program) (frame : Nat) (name : String)
    (before between : List (Occurrence × Piece)) : Prop :=
  name ∉ frameNames program.frames frame ∧
    (∀ earlier ∈ before, earlier.1.site? ≠ some (frame, name)) ∧
    ∃ later ∈ between, later.1.site? = some (frame, name)

section References

variable {program : Program} {here there : Moment} {frame : Nat} {name : String}

theorem frames_eq (hereMember : here ∈ program.moments) (thereMember : there ∈ program.moments)
    (hereRefers : here.occurrence.RefersIn frame name)
    (thereRefers : there.occurrence.RefersIn frame name) :
    here.occurrence.frames = there.occurrence.frames := by
  have inner := moments_coherent hereMember thereMember hereRefers.innermost
    (List.mem_of_head? thereRefers.innermost)
  have outer := moments_coherent thereMember hereMember thereRefers.innermost
    (List.mem_of_head? hereRefers.innermost)
  exact inner.eq_of_length (Nat.le_antisymm inner.length_le outer.length_le)

theorem piece_eq_of_agree (hereMember : here ∈ program.moments)
    (thereMember : there ∈ program.moments) (hereRefers : here.occurrence.RefersIn frame name)
    (thereRefers : there.occurrence.RefersIn frame name)
    (agree : (frame, name) ∈ here.declared ↔ (frame, name) ∈ there.declared) :
    here.occurrence.piece here.declared = there.occurrence.piece there.declared := by
  have binder : binder? here.declared here.occurrence.frames name =
      binder? there.declared here.occurrence.frames name := by
    apply List.find?_congr
    intro outer around
    apply decide_eq_decide.mpr
    by_cases innermost : outer = frame
    · rw [innermost]
      exact agree
    · exact moments_frozen hereMember thereMember hereRefers.innermost thereRefers.innermost around
        innermost name
  rw [Occurrence.piece_of_reference (prefix_of_moment hereMember) hereRefers.refers,
    Occurrence.piece_of_reference (prefix_of_moment thereMember) thereRefers.refers,
    hereRefers.name, thereRefers.name, binder,
    frames_eq hereMember thereMember hereRefers thereRefers]

/-- A reference that finds the name in its own frame is written differently from one that does
not. -/
theorem render_ne_of_declared (hereMember : here ∈ program.moments)
    (thereMember : there ∈ program.moments) (hereRefers : here.occurrence.RefersIn frame name)
    (thereRefers : there.occurrence.RefersIn frame name) (absent : (frame, name) ∉ here.declared)
    (present : (frame, name) ∈ there.declared) {style : Style}
    (valid : separatorFault? style.separator = none) :
    (here.occurrence.piece here.declared).render style ≠
      (there.occurrence.piece there.declared).render style := by
  have found : binder? there.declared there.occurrence.frames there.occurrence.name =
      some frame := by
    obtain ⟨rest, frames⟩ := List.head?_eq_some_iff.mp thereRefers.innermost
    rw [binder?, frames, thereRefers.name, List.find?_cons_of_pos (by simpa using present)]
  have declared : (frame, name) ∈ program.bindings := (prefix_of_moment thereMember).subset present
  have text := (render_eq_iff_binder thereMember thereRefers.refers valid
    (thereRefers.name ▸ declared)).mpr found
  intro equal
  rw [text, thereRefers.name, ← hereRefers.name,
    render_eq_iff_binder hereMember hereRefers.refers valid (hereRefers.name ▸ declared), binder?]
    at equal
  apply absent
  simpa [hereRefers.name] using List.find?_some equal

/-- The frame has the name at the second of two references and not at the first exactly when the
name's first declaration stands between them. -/
theorem dividedBy_iff {first middle last : List Moment}
    (split : program.moments = first ++ here :: (middle ++ there :: last))
    (hereRefers : here.occurrence.RefersIn frame name)
    (thereRefers : there.occurrence.RefersIn frame name) :
    program.DividedBy frame name (first.map writtenAt) (middle.map writtenAt) ↔
      (frame, name) ∉ here.declared ∧ (frame, name) ∈ there.declared := by
  have splitThere : program.moments = (first ++ here :: middle) ++ there :: last := by
    simpa using split
  have unsited : here.occurrence.site? ≠ some (frame, name) := by
    simp [Occurrence.site?, hereRefers.refers]
  rw [declared_at_reference split hereRefers.refers (List.mem_of_head? hereRefers.innermost),
    declared_at_reference splitThere thereRefers.refers (List.mem_of_head? thereRefers.innermost)]
  simp only [DividedBy, List.forall_mem_map, List.mem_append, List.mem_cons, not_or, not_exists,
    not_and]
  constructor
  · rintro ⟨unnamed, unseen, _, listed, site⟩
    obtain ⟨later, member, rfl⟩ := List.mem_map.mp listed
    exact ⟨⟨unnamed, unseen⟩, Or.inr ⟨later, Or.inr (Or.inr member), site⟩⟩
  · rintro ⟨⟨unnamed, unseen⟩, named | ⟨earlier, member | rfl | member, site⟩⟩
    · exact absurd named unnamed
    · exact absurd site (unseen earlier member)
    · exact absurd site unsited
    · exact ⟨unnamed, unseen, writtenAt earlier, List.mem_map_of_mem member, site⟩

end References

end Program

/-- Hoisting binds what the statements of a list declare themselves. Writing the statements then
adds to their frame exactly what else they declare in it, and nothing if there is nothing else.
References to one name in one frame are written alike, unless a declaration that the frame did not
open with stands between them. -/
theorem references_agree_unless_divided (program : Program) (style : Style) (text : String)
    (written : program.transform style = .ok text) :
    (∀ (writer : Writer) (body : List Stmt),
      ∀ lines ∈ [bodySteps body, body.flatMap fun stmt => stmt.steps ++ [.newline]],
        let hoisted : Writer := { writer with context := writer.context.hoist body }
        let ended := Step.runAll (hoistSteps body ++ lines) writer
        ended = Step.runAll lines hoisted ∧
          ((∀ name ∈ ownNames body, writer.binds name ∨ name ∈ hoistedNames body) →
            (Written.writer ended).context.chain.current = hoisted.context.chain.current) ∧
          ∀ after, ended = .ok () after →
            ∀ name, after.binds name ↔ writer.binds name ∨ name ∈ ownNames body) ∧
      ∃ writer, Step.runAll program.steps {} = .ok () writer ∧
        text = style.render writer.output.toList ∧
        writer.names.length = program.occurrences.length ∧
        ∀ before here between there behind,
          program.occurrences.zip writer.names = before ++ here :: (between ++ there :: behind) →
          ∀ frame name, here.1.RefersIn frame name → there.1.RefersIn frame name →
            (¬ program.DividedBy frame name before between →
              here.2.render style = there.2.render style) ∧
            (program.DividedBy frame name before between →
              separatorFault? style.separator = none →
              here.2.render style ≠ there.2.render style) := by
  constructor
  · intro writer body lines listed
    have declared : Step.declaredAll lines = ownNames body := by
      rcases List.mem_pair.mp listed with rfl | rfl
      · exact declaredAll_body body
      · exact Program.declaredAll_lines body
    exact writing_adds_ownNames writer body declared
  · obtain ⟨writer, ran, rendered⟩ := program.written_of_transform written
    refine ⟨writer, ran, rendered, Program.length_names ran, ?_⟩
    intro before here between there behind split frame name hereRefers thereRefers
    rw [Program.zip_names ran] at split
    obtain ⟨first, _, moments, rfl, fromHere⟩ := List.map_eq_append_iff.mp split
    obtain ⟨hereMoment, _, rfl, rfl, behindHere⟩ := List.map_eq_cons_iff.mp fromHere
    obtain ⟨middle, _, rfl, rfl, fromThere⟩ := List.map_eq_append_iff.mp behindHere
    obtain ⟨thereMoment, last, rfl, rfl, rfl⟩ := List.map_eq_cons_iff.mp fromThere
    have hereMember : hereMoment ∈ program.moments := by simp [moments]
    have thereMember : thereMoment ∈ program.moments := by simp [moments]
    rw [Program.dividedBy_iff moments hereRefers thereRefers]
    constructor
    · intro undivided
      have agree : (frame, name) ∈ hereMoment.declared ↔ (frame, name) ∈ thereMoment.declared := by
        constructor
        · intro present
          exact Program.moments_ascending moments present
        · intro present
          by_contra absent
          exact undivided ⟨absent, present⟩
      exact congrArg (Piece.render style)
        (Program.piece_eq_of_agree hereMember thereMember hereRefers thereRefers agree)
    · rintro ⟨absent, present⟩ valid
      exact Program.render_ne_of_declared hereMember thereMember hereRefers thereRefers absent
        present valid

theorem references_agree_unless_divided_bare :
    let program : Program := ⟨[.expr (.ident "x" {}) {},
      .whileLoop (.ident "x" {}) (.var .var [.mk "x" none {}] {}) {}, .expr (.ident "x" {}) {}], {}⟩
    program.transform {} = .ok "x;\nwhile (x) var x$0;\nx$0;\n" ∧
      ∃ writer, Step.runAll program.steps {} = .ok () writer ∧
        ∃ first second third : Piece,
          program.occurrences.zip writer.names = [(⟨"x", [0], false⟩, first),
            (⟨"x", [0], false⟩, second), (⟨"x", [0], true⟩, .declaration ⟨"x", 0⟩),
            (⟨"x", [0], false⟩, third)] ∧
          first.render {} = second.render {} ∧ second.render {} ≠ third.render {} := by
  intro program
  have written : program.transform {} = .ok "x;\nwhile (x) var x$0;\nx$0;\n" := rfl
  obtain ⟨writer, ran, _, _, compare⟩ := (references_agree_unless_divided program {} _ written).2
  have names : writer.names =
      [.free "x", .free "x", .declaration ⟨"x", 0⟩, .reference ⟨"x", 0⟩] := by
    have same := (EStateM.Result.ok.inj ran).2
    rw [← same]
    rfl
  refine ⟨written, writer, ran, .free "x", .free "x", .reference ⟨"x", 0⟩, ?_, ?_, ?_⟩
  · rw [names]
    rfl
  · refine (compare [] _ [] _ _ (by rw [names]; rfl) 0 "x" ⟨rfl, rfl, rfl⟩ ⟨rfl, rfl, rfl⟩).1 ?_
    rintro ⟨_, _, _, member, _⟩
    cases member
  · refine (compare [_] _ [_] _ [] (by rw [names]; rfl) 0 "x" ⟨rfl, rfl, rfl⟩ ⟨rfl, rfl, rfl⟩).2
      ⟨by decide, by decide, by decide⟩ (by decide)

/-- References in one frame need not agree, not even in that of the program, whose number is 0: the
body of the loop declares the name only where it stands. -/
theorem references_disagree :
    ¬ ∀ (program : Program) (style : Style) (writer : Writer),
      separatorFault? style.separator = none →
      Step.runAll program.steps {} = .ok () writer →
      ∀ here ∈ program.occurrences.zip writer.names, ∀ there ∈ program.occurrences.zip writer.names,
        ∀ name, here.1.RefersIn 0 name → there.1.RefersIn 0 name →
          here.2.render style = there.2.render style := by
  intro agree
  have same := agree ⟨[.expr (.ident "x" {}) {},
    .whileLoop (.ident "x" {}) (.var .var [.mk "x" none {}] {}) {}, .expr (.ident "x" {}) {}], {}⟩
    {} _ (by decide) rfl (⟨"x", [0], false⟩, .free "x") (by decide)
    (⟨"x", [0], false⟩, .reference ⟨"x", 0⟩) (by decide) "x" ⟨rfl, rfl, rfl⟩
    ⟨rfl, rfl, rfl⟩
  exact absurd same (by decide)

end Freshen
