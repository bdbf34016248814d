import Freshen.Proofs.Emission
import Freshen.Proofs.MintedNames

/-!
What steps may write, said without the scopes that they are carried out in: any number may stand
after a name, and a line may be indented by any number of spaces.
-/

namespace Freshen

def LineBreak (text : List Char) : Prop :=
  ∃ blanks, (∀ c ∈ blanks, c = ' ') ∧ text = '\n' :: blanks

def Numbered (separator name : String) (text : List Char) : Prop :=
  ∃ number, text = (Minted.text separator ⟨name, number⟩).toList

namespace Step

mutual

def Writes (separator : String) : Step → List Char → Prop
  | text content, written => written = content.toList
  | newline, written => LineBreak written
  | bind _, written => written = []
  | declare name, written => Numbered separator name written
  | refer name, written => written = name.toList ∨ Numbered separator name written
  | framed body, written => WritesAll separator body written
  | braced body, written =>
    ∃ inside close, WritesAll separator body inside ∧ LineBreak close ∧
      written = '\x7b' :: (inside ++ (close ++ ['\x7d']))
  | reject _, _ => False

def WritesAll (separator : String) : List Step → List Char → Prop
  | [], written => written = []
  | step :: rest, written =>
    ∃ first second, Writes separator step first ∧ WritesAll separator rest second ∧
      written = first ++ second

end

variable {separator : String} {written : List Char}

@[simp] theorem writesAll_nil : WritesAll separator [] written ↔ written = [] := by
  rw [WritesAll]

@[simp] theorem writesAll_cons {step : Step} {rest : List Step} :
    WritesAll separator (step :: rest) written ↔
      ∃ first second, Writes separator step first ∧ WritesAll separator rest second ∧
        written = first ++ second := by
  rw [WritesAll]

theorem writesAll_singleton {step : Step} :
    WritesAll separator [step] written ↔ Writes separator step written := by
  simp [writesAll_cons]

@[simp] theorem writesAll_append {left right : List Step} :
    WritesAll separator (left ++ right) written ↔
      ∃ first second, WritesAll separator left first ∧ WritesAll separator right second ∧
        written = first ++ second := by
  induction left generalizing written with
  | nil => simp
  | cons step rest ih =>
      simp only [List.cons_append, writesAll_cons, ih]
      constructor
      · rintro ⟨first, _, step, ⟨second, third, rest, right, rfl⟩, rfl⟩
        exact ⟨first ++ second, third, ⟨first, second, step, rest, rfl⟩, right, by simp⟩
      · rintro ⟨_, third, ⟨first, second, step, rest, rfl⟩, right, rfl⟩
        exact ⟨first, second ++ third, step, ⟨second, third, rest, right, rfl⟩, by simp⟩

theorem writesAll_text {content : String} {rest : List Step} :
    WritesAll separator (text content :: rest) written ↔
      ∃ inner, WritesAll separator rest inner ∧ written = content.toList ++ inner := by
  simp [Writes]

theorem writesAll_newline {rest : List Step} :
    WritesAll separator (newline :: rest) written ↔
      ∃ line inner, LineBreak line ∧ WritesAll separator rest inner ∧ written = line ++ inner := by
  simp [Writes]

theorem writesAll_declare {name : String} {rest : List Step} :
    WritesAll separator (declare name :: rest) written ↔
      ∃ spelling inner, Numbered separator name spelling ∧ WritesAll separator rest inner ∧
        written = spelling ++ inner := by
  simp [Writes]

theorem writesAll_framed {body rest : List Step} :
    WritesAll separator (framed body :: rest) written ↔
      WritesAll separator (body ++ rest) written := by
  simp [Writes]

@[simp] theorem writes_text {content : String} :
    Writes separator (text content) written ↔ written = content.toList := by
  rw [Writes]

end Step

def Writer.rendered (writer : Writer) (style : Style) : List Char :=
  (style.render writer.output.toList).toList

def Style.indentsBySpaces (style : Style) : Bool :=
  (style.indent.getD "  ").toList.all (· == ' ')

theorem Style.lineBreak_render {style : Style} (blank : style.indentsBySpaces = true)
    (level : Nat) : LineBreak ((Piece.newline level).render style).toList := by
  refine ⟨(String.join (List.replicate level (style.indent.getD "  "))).toList, ?_, ?_⟩
  · intro c member
    simp only [String.toList_join, List.mem_flatMap, List.mem_replicate] at member
    obtain ⟨_, ⟨_, rfl⟩, member⟩ := member
    exact eq_of_beq (List.all_eq_true.mp blank c member)
  · simp [Piece.render]

namespace Step

mutual

theorem writes_of_yields (step : Step) {style : Style} (blank : style.indentsBySpaces = true)
    {pieces : List Piece} (yields : Yields step pieces) :
    Writes style.separator step (style.render pieces).toList := by
  match step with
  | text content =>
      rw [Yields] at yields
      rw [yields, Style.render_singleton]
      exact writes_text.mpr rfl
  | newline =>
      rw [Yields] at yields
      obtain ⟨level, rfl⟩ := yields
      rw [Style.render_singleton, Writes]
      exact Style.lineBreak_render blank level
  | bind name =>
      rw [Yields] at yields
      rw [yields, Writes]
      rfl
  | declare name =>
      rw [Yields] at yields
      obtain ⟨number, rfl⟩ := yields
      rw [Style.render_singleton, Writes]
      exact ⟨number, rfl⟩
  | refer name =>
      rw [Yields] at yields
      rw [Writes]
      rcases yields with rfl | ⟨number, rfl⟩
      · exact .inl (by rw [Style.render_singleton]; rfl)
      · exact .inr ⟨number, by rw [Style.render_singleton]; rfl⟩
  | framed body =>
      rw [Yields] at yields
      rw [Writes]
      exact writesAll_of_yieldsAll body blank yields
  | braced body =>
      rw [Yields] at yields
      obtain ⟨inside, level, yields, rfl⟩ := yields
      rw [Writes]
      refine ⟨_, _, writesAll_of_yieldsAll body blank yields,
        Style.lineBreak_render blank level, ?_⟩
      simp [Style.render, Piece.render]
  | reject cause =>
      rw [Yields] at yields
      exact yields.elim

theorem writesAll_of_yieldsAll (steps : List Step) {style : Style}
    (blank : style.indentsBySpaces = true) {pieces : List Piece}
    (yields : YieldsAll steps pieces) :
    WritesAll style.separator steps (style.render pieces).toList := by
  match steps with
  | [] =>
      rw [yieldsAll_nil.mp yields]
      exact writesAll_nil.mpr rfl
  | step :: rest =>
      obtain ⟨first, second, front, back, rfl⟩ := yieldsAll_cons.mp yields
      refine writesAll_cons.mpr ⟨_, _, writes_of_yields step blank front,
        writesAll_of_yieldsAll rest blank back, ?_⟩
      rw [Style.render_append, String.toList_append]

end

/-- Steps that are carried out write one of the texts they may write. -/
theorem runAll_writes (steps : List Step) {style : Style} (blank : style.indentsBySpaces = true)
    {next : Nat} {writer result : Writer} {outer : List Nat} {frame : Nat}
    {bindings : List Binding} (tracked : writer.Tracked (frame :: outer) next bindings)
    (ran : runAll steps writer = .ok () result) :
    ∃ written, WritesAll style.separator steps written ∧
      result.rendered style = writer.rendered style ++ written := by
  obtain ⟨pieces, yields, output⟩ := runAll_yields steps tracked ran
  refine ⟨_, writesAll_of_yieldsAll steps blank yields, ?_⟩
  rw [Writer.rendered, Writer.rendered, output, Style.render_append, String.toList_append]

end Step

end Freshen
