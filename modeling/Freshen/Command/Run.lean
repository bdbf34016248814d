import Freshen.Command.Invocation
import Freshen.Command.Report

/-! Running a command line on a file tree. -/

namespace Freshen

structure Outcome where
  status : Nat := 0
  output : String := ""
  /-- A message for each file that failed. -/
  errors : List String := []
  failure : Option Failure := none
  tree : FileTree

namespace Outcome

def fail (tree : FileTree) (failure : Failure) : Outcome :=
  { status := 1, failure := some failure, tree }

def ofVersion (tree : FileTree) (json : Bool) : Outcome :=
  { output := (if json then versionReport.pretty else versionText) ++ "\n", tree }

/-- What is said about renamed files. A JSON report says all there is to say. -/
def ofFiles (tree : FileTree) (json : Bool) (style : Style) (files : List FileResult) : Outcome :=
  let failed := failedCount files
  let status := if failed = 0 then 0 else 1
  if json then { status, output := (renameReport style files).pretty ++ "\n", tree }
  else
    { status
      output := String.join (files.map (FileResult.listing (1 < files.length)))
      errors := files.filterMap FileResult.errorLine?
      failure := if failed = 0 then none else some (.filesFailed failed files.length)
      tree }

end Outcome

def FileTree.workingPath (tree : FileTree) : String :=
  "/" ++ Path.ofSegments tree.workingFolder

/-- Carries out a command. The configuration is read first, whatever the command is; a separator
from the command line counts before the one from the environment, and both before the file's. -/
def Invocation.run (invocation : Invocation) (environment : Option String) (tree : FileTree) :
    Outcome :=
  let folder := invocation.folder.getD tree.workingPath
  match Config.load tree folder invocation.config with
  | .error cause => .fail tree (.config cause)
  | .ok config =>
    let config := (config.withVerbosity invocation.verbosity).withJsonLogs invocation.json
    match invocation.command with
    | .version => .ofVersion tree invocation.json
    | .rename paths outFolder separator =>
      match (separator.or environment).elim (.ok config) config.withSeparator with
      | .error cause => .fail tree (.config cause)
      | .ok config =>
        match tree.renameAll config paths outFolder with
        | .error (failure, tree) => .fail tree failure
        | .ok (files, tree) => .ofFiles tree invocation.json config.style files

def runWords (words : List String) (environment : Option String) (tree : FileTree) : Outcome :=
  match Request.ofWords words with
  | .run invocation => invocation.run environment tree
  | .showVersion => { output := versionText ++ "\n", tree }
  | .showHelp => { tree }
  | .misuse => { status := 2, tree }

end Freshen
