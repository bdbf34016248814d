import Freshen.Code.Piece
import Freshen.Scope.Context

/-! The steps of writing a program, and how they are carried out. -/

namespace Freshen

structure Unsupported where
  kind : String
  span : Span
deriving DecidableEq, Repr

def Unsupported.message (cause : Unsupported) : String :=
  s!"Unsupported syntax: {cause.kind} at {cause.span.text}"

inductive Step where
  | text (content : String)
  | newline
  /-- Declares a name in the current frame. -/
  | bind (name : String)
  /-- Declares a name in the current frame and writes what it became. -/
  | declare (name : String)
  /-- Writes what a name means here; a free name means itself. -/
  | refer (name : String)
  /-- Steps inside a frame of their own. -/
  | framed (body : List Step)
  /-- Steps between braces, one level further in; the closing brace has a line of its own. -/
  | braced (body : List Step)
  | reject (cause : Unsupported)

structure Writer where
  context : Context := {}
  level : Nat := 0
  output : Array Piece := #[]

namespace Writer

def write (writer : Writer) (piece : Piece) : Writer :=
  { writer with output := writer.output.push piece }

def declare (writer : Writer) (name : String) : Minted × Writer :=
  let (minted, context) := writer.context.declare name
  (minted, { writer with context })

def refer (writer : Writer) (name : String) : Writer :=
  match writer.context.resolve? name with
  | some minted => writer.write (.reference minted)
  | none => writer.write (.free name)

def enter (writer : Writer) : Writer := { writer with context := writer.context.enter }

/-- Leaves the current frame, if it is not the outermost one. -/
def exit (writer : Writer) : Writer :=
  { writer with context := writer.context.exit?.getD writer.context }

def newline (writer : Writer) : Writer := writer.write (.newline writer.level)

def openBrace (writer : Writer) : Writer :=
  { writer.write .openBrace with level := writer.level + 1 }

def closeBrace (writer : Writer) : Writer :=
  ({ writer with level := writer.level - 1 } : Writer).newline.write .closeBrace

end Writer

abbrev Written := EStateM.Result Unsupported Writer Unit

namespace Step

mutual

def run : Step → Writer → Written
  | text content, writer => .ok () (writer.write (.text content))
  | newline, writer => .ok () writer.newline
  | bind name, writer => .ok () (writer.declare name).2
  | declare name, writer =>
    let (minted, writer) := writer.declare name
    .ok () (writer.write (.declaration minted))
  | refer name, writer => .ok () (writer.refer name)
  | framed body, writer =>
    match runAll body writer.enter with
    | .ok _ writer => .ok () writer.exit
    | .error cause writer => .error cause writer.exit
  | braced body, writer =>
    match runAll body writer.openBrace with
    | .ok _ writer => .ok () writer.closeBrace
    | .error cause writer => .error cause writer
  | reject cause, writer => .error cause writer

/-- Carries out steps in order. The first one that is rejected ends them, and every frame that they
opened is left all the same. -/
def runAll : List Step → Writer → Written
  | [], writer => .ok () writer
  | step :: rest, writer =>
    match run step writer with
    | .ok _ writer => runAll rest writer
    | .error cause writer => .error cause writer

end

end Step

end Freshen
