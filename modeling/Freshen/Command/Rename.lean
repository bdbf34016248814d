import Freshen.Code.Draft
import Freshen.Config.Basic
import Freshen.Estree.Load

/-! Renaming files: which files a list of paths means, and what becomes of each. -/

namespace Freshen

inductive Failure where
  | config (cause : Error)
  | inputNotFound (path : String)
  | noInputs
  | outputCollision (first second : String)
  | folderNotMade (path : String)
  | filesFailed (failed total : Nat)
deriving DecidableEq, Repr

def outputName (input : String) : String := Path.stem input ++ ".js"

def Failure.message : Failure → String
  | config cause => cause.message
  | inputNotFound path => s!"input not found: {path}"
  | noInputs => "no ESTree JSON files found"
  | outputCollision first second =>
    s!"{first} and {second} would both be written to {outputName second}"
  | folderNotMade path => s!"cannot make folder {path}"
  | filesFailed failed total => s!"{failed} of {total} files failed"

inductive RenameFault where
  | read (cause : FileFault)
  | estree (cause : Estree.TextError)
  | unsupported (cause : Unsupported)
  | write (cause : FileFault)
deriving DecidableEq, Repr

namespace RenameFault

def code : RenameFault → String
  | read _ => "RENAME_READ_FAILED"
  | estree _ => "RENAME_INVALID_ESTREE"
  | unsupported _ => "RENAME_UNSUPPORTED_SYNTAX"
  | write _ => "RENAME_WRITE_FAILED"

def message : RenameFault → String
  | read cause | write cause => cause.message
  | estree cause => cause.message
  | unsupported cause => cause.message

end RenameFault

inductive Product where
  | code (text : String)
  | written (path : String)
deriving DecidableEq, Repr

structure FileResult where
  input : String
  result : Except RenameFault Product

def FileResult.isOk (file : FileResult) : Bool :=
  match file.result with
  | .ok _ => true
  | .error _ => false

/-- Files that a search takes: JSON files, the configuration aside. -/
def isProgramFile (names : List String) : Bool :=
  let name := names.getLast?.getD ""
  Path.extension? name == some "json" && name != Config.fileName

/-- The program files below a folder, in the order of their names, one folder after another. -/
def FileTree.programFiles (tree : FileTree) (folder : List String) : List (List String) :=
  ((tree.filesBelow folder).filter isProgramFile).mergeSort Path.namesLE

/-- The files that one path means: a file itself, or what is found below a folder. -/
def FileTree.inputs (tree : FileTree) (path : String) : Except Failure (List String) :=
  match tree.locate? path with
  | none => .error (.inputNotFound path)
  | some names =>
    if tree.hasFolder names then
      .ok ((tree.programFiles names).map fun below => below.foldl Path.join path)
    else .ok [path]

def FileTree.allInputs (tree : FileTree) (folder : String) (paths : List String) :
    Except Failure (List String) := do
  return (← paths.mapM fun path => tree.inputs (Path.join folder path)).flatten

/-- The first input whose output name is taken, after the one that takes it. -/
def collision? (seen : List String) : List String → Option (String × String)
  | [] => none
  | input :: rest =>
    match seen.find? fun other => Path.stem other == Path.stem input with
    | some other => some (other, input)
    | none => collision? (input :: seen) rest

def FileTree.rename (tree : FileTree) (style : Style) (input : String) :
    Except RenameFault String := do
  let text ← (tree.read input).mapError .read
  let program ← (Estree.programOfText text).mapError .estree
  (program.transform style).mapError .unsupported

def FileTree.writeCode (tree : FileTree) (outFolder input code : String) :
    Except RenameFault (String × FileTree) := do
  let path := Path.join outFolder (outputName input)
  return (path, ← (tree.write path code).mapError .write)

def FileTree.process (tree : FileTree) (style : Style) (outFolder : Option String)
    (input : String) : FileResult × FileTree :=
  match tree.rename style input, outFolder with
  | .error fault, _ => (⟨input, .error fault⟩, tree)
  | .ok code, none => (⟨input, .ok (.code code)⟩, tree)
  | .ok code, some folder =>
    match tree.writeCode folder input code with
    | .ok (path, tree) => (⟨input, .ok (.written path)⟩, tree)
    | .error fault => (⟨input, .error fault⟩, tree)

def FileTree.processAll (tree : FileTree) (style : Style) (outFolder : Option String) :
    List String → List FileResult × FileTree
  | [] => ([], tree)
  | input :: rest =>
    let (file, tree) := tree.process style outFolder input
    let (files, tree) := tree.processAll style outFolder rest
    (file :: files, tree)

/-- Makes the folder for the output, once it is sure that no two inputs share a name there. With a
failure comes the tree it leaves. -/
def FileTree.prepareOutput (tree : FileTree) (outFolder : Option String) (inputs : List String) :
    Except (Failure × FileTree) FileTree :=
  match outFolder with
  | none => .ok tree
  | some folder =>
    match collision? [] inputs with
    | some (first, second) => .error (.outputCollision first second, tree)
    | none => (tree.makeFolders folder).mapError (.folderNotMade folder, ·)

def FileTree.renameAll (tree : FileTree) (config : Config) (paths : List String)
    (outFolder : Option String) : Except (Failure × FileTree) (List FileResult × FileTree) := do
  let inputs ← (tree.allInputs config.folder paths).mapError (·, tree)
  if inputs = [] then throw (.noInputs, tree)
  let outFolder := outFolder.map (Path.join config.folder)
  let made ← tree.prepareOutput outFolder inputs
  return made.processAll config.style outFolder inputs

end Freshen
