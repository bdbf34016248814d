import Freshen.Proofs.Writing

/-!
A second writer, which knows the style from the start: its frames hold finished names, and its
output is text that is indented as it grows. Nothing it does depends on the style. At every moment
it is the writer of pieces with the style filled in.
-/

namespace Freshen

structure TextWriter where
  /-- The current frame, from declared names to finished ones. -/
  current : List (String × String) := []
  enclosing : List (List (String × String)) := []
  count : Nat := 0
  level : Nat := 0
  output : String := ""

namespace TextWriter

def write (writer : TextWriter) (text : String) : TextWriter :=
  { writer with output := writer.output ++ text }

def declare (style : Style) (writer : TextWriter) (name : String) : String × TextWriter :=
  match writer.current.lookup name with
  | some finished => (finished, writer)
  | none =>
    let finished := name ++ style.separator ++ toString writer.count
    (finished, { writer with
      current := writer.current ++ [(name, finished)], count := writer.count + 1 })

def resolve (writer : TextWriter) (name : String) : String :=
  ((writer.current :: writer.enclosing).findSome? (·.lookup name)).getD name

def enter (writer : TextWriter) : TextWriter :=
  { writer with current := [], enclosing := writer.current :: writer.enclosing }

def exit (writer : TextWriter) : TextWriter :=
  match writer.enclosing with
  | [] => writer
  | outer :: rest => { writer with current := outer, enclosing := rest }

def newline (style : Style) (writer : TextWriter) : TextWriter :=
  writer.write ("\n" ++ String.join (List.replicate writer.level (style.indent.getD "  ")))

def openBrace (writer : TextWriter) : TextWriter :=
  { writer.write "\x7b" with level := writer.level + 1 }

def closeBrace (style : Style) (writer : TextWriter) : TextWriter :=
  (newline style { writer with level := writer.level - 1 }).write "\x7d"

end TextWriter

namespace Step

mutual

def runText (style : Style) : Step → TextWriter → Except Unsupported TextWriter
  | text content, writer => .ok (writer.write content)
  | newline, writer => .ok (writer.newline style)
  | bind name, writer => .ok (writer.declare style name).2
  | declare name, writer =>
    let (finished, writer) := writer.declare style name
    .ok (writer.write finished)
  | refer name, writer => .ok (writer.write (writer.resolve name))
  | framed body, writer => (runTexts style body writer.enter).map TextWriter.exit
  | braced body, writer => (runTexts style body writer.openBrace).map (TextWriter.closeBrace style)
  | reject cause, _ => .error cause

def runTexts (style : Style) : List Step → TextWriter → Except Unsupported TextWriter
  | [], writer => .ok writer
  | step :: rest, writer => (runText style step writer).bind (runTexts style rest)

end

end Step

def Program.styledText (program : Program) (style : Style) : Except Unsupported String :=
  (Step.runTexts style program.steps {}).map TextWriter.output

def Frame.texts (separator : String) (frame : Frame) : List (String × String) :=
  frame.bindings.map fun (name, minted) => (name, minted.text separator)

def Writer.filled (style : Style) (writer : Writer) : TextWriter where
  current := writer.context.chain.current.texts style.separator
  enclosing := writer.context.chain.enclosing.map (Frame.texts style.separator)
  count := writer.context.count
  level := writer.level
  output := style.render writer.output.toList

def Written.filled (style : Style) : Written → Except Unsupported TextWriter
  | .ok _ writer => .ok (writer.filled style)
  | .error cause _ => .error cause

section

variable (style : Style) (writer : Writer)

theorem Frame.lookup_texts (separator : String) (frame : Frame) (name : String) :
    (frame.texts separator).lookup name = (frame.get? name).map (Minted.text separator) := by
  rw [Frame.texts, Frame.get?]
  induction frame.bindings with
  | nil => rfl
  | cons binding rest ih =>
      rw [List.map_cons, List.lookup_cons, List.lookup_cons, ih]
      cases name == binding.1 with
      | true => rfl
      | false => rfl

namespace Writer

theorem filled_write (piece : Piece) :
    (writer.write piece).filled style = (writer.filled style).write (piece.render style) := by
  simp only [filled, TextWriter.write, TextWriter.mk.injEq]
  refine ⟨rfl, rfl, rfl, rfl, ?_⟩
  rw [output_write, Style.render_append, Style.render_singleton]

/-- Whether a name is declared already does not depend on the style. -/
theorem filled_declare (name : String) :
    (writer.filled style).declare style name =
      ((writer.declare name).1.text style.separator, (writer.declare name).2.filled style) := by
  have found : (writer.filled style).current.lookup name =
      (writer.context.chain.current.get? name).map (Minted.text style.separator) :=
    Frame.lookup_texts style.separator _ name
  rw [TextWriter.declare, found, Writer.declare, Context.declare]
  cases writer.context.chain.current.get? name with
  | some minted => rfl
  | none => simp [Context.fresh, Chain.bind, Frame.bind, filled, Frame.texts, Minted.text]

theorem filled_resolve (name : String) :
    (writer.filled style).resolve name =
      ((writer.context.resolve? name).map (Minted.text style.separator)).getD name := by
  have found (frames : List Frame) :
      (frames.map (Frame.texts style.separator)).findSome? (·.lookup name) =
        (frames.findSome? (·.get? name)).map (Minted.text style.separator) := by
    induction frames with
    | nil => rfl
    | cons frame rest ih =>
        rw [List.map_cons, List.findSome?_cons, List.findSome?_cons, Frame.lookup_texts, ih]
        cases frame.get? name with
        | some minted => rfl
        | none => rfl
  rw [TextWriter.resolve, Context.resolve?, Chain.resolve?, ← found]
  rfl

theorem filled_refer (name : String) :
    (writer.refer name).filled style =
      (writer.filled style).write ((writer.filled style).resolve name) := by
  rw [filled_resolve, refer]
  cases writer.context.resolve? name with
  | some minted => exact filled_write style writer _
  | none => exact filled_write style writer _

theorem filled_enter : writer.enter.filled style = (writer.filled style).enter := rfl

theorem filled_openBrace : writer.openBrace.filled style = (writer.filled style).openBrace := by
  have written := filled_write style writer .openBrace
  exact congrArg (fun text : TextWriter => { text with level := writer.level + 1 }) written

theorem filled_closeBrace :
    writer.closeBrace.filled style = (writer.filled style).closeBrace style := by
  rw [closeBrace, filled_write, newline, filled_write]
  rfl

theorem filled_exit : writer.exit.filled style = (writer.filled style).exit := by
  rw [exit, Context.exit?, Chain.pop?, TextWriter.exit]
  cases outside : writer.context.chain.enclosing with
  | nil => simp [filled, outside]
  | cons outer rest => simp [filled, outside]

end Writer

end

namespace Step

mutual

theorem runText_filled (style : Style) (step : Step) (writer : Writer) :
    runText style step (writer.filled style) = Written.filled style (run step writer) := by
  match step with
  | text content => rw [runText, run, Written.filled, Writer.filled_write]; rfl
  | newline => rw [runText, run, Written.filled, Writer.newline, Writer.filled_write]; rfl
  | bind name => rw [runText, run, Written.filled, Writer.filled_declare]
  | declare name =>
      rw [runText, Writer.filled_declare, run, Written.filled, Writer.filled_write]
      rfl
  | refer name => rw [runText, run, Written.filled, Writer.filled_refer]
  | framed body =>
      rw [runText, run, ← Writer.filled_enter, runTexts_filled style body writer.enter]
      cases runAll body writer.enter with
      | ok _ after => exact congrArg Except.ok (after.filled_exit style).symm
      | error cause after => rfl
  | braced body =>
      rw [runText, run, ← Writer.filled_openBrace, runTexts_filled style body writer.openBrace]
      cases runAll body writer.openBrace with
      | ok _ after => exact congrArg Except.ok (after.filled_closeBrace style).symm
      | error cause after => rfl
  | reject cause => rfl

theorem runTexts_filled (style : Style) (steps : List Step) (writer : Writer) :
    runTexts style steps (writer.filled style) = Written.filled style (runAll steps writer) := by
  match steps with
  | [] => rfl
  | step :: rest =>
      rw [runTexts, runAll, runText_filled style step writer]
      cases run step writer with
      | ok _ after => exact runTexts_filled style rest after
      | error cause after => rfl

end

end Step

/-- Whether the style is known from the start or filled in at the end makes no difference. -/
theorem Program.styledText_eq (program : Program) (style : Style) :
    program.styledText style = program.transform style := by
  have filled := Step.runTexts_filled style program.steps {}
  have start : ({} : Writer).filled style = {} := rfl
  rw [start] at filled
  rw [styledText, filled, transform, template]
  cases Step.runAll program.steps {} with
  | ok _ writer => rfl
  | error cause writer => rfl

end Freshen
