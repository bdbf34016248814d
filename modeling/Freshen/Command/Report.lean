import Freshen.Command.Rename
import Freshen.Json.Printer

/-! What a command says: plain text and messages, or one JSON document. -/

namespace Freshen

def programName : String := "rebind"

def version : String := "0.1.0"

def versionText : String := programName ++ " " ++ version

def versionReport : Json :=
  .object [("name", .string programName), ("version", .string version)]

namespace FileResult

def report (file : FileResult) : Json :=
  .object ([("input", .string file.input), ("ok", .bool file.isOk)] ++
    match file.result with
    | .ok (.written path) => [("output", .string path)]
    | .ok (.code text) => [("code", .string text)]
    | .error fault =>
      [("error", .object [("code", .string fault.code), ("message", .string fault.message)])])

def errorLine? (file : FileResult) : Option String :=
  match file.result with
  | .ok _ => none
  | .error fault => some s!"error[{fault.code}]: {file.input}: {fault.message}"

/-- The code of a file, under its name if there are several files. -/
def listing (several : Bool) (file : FileResult) : String :=
  match file.result with
  | .ok (.code text) => (if several then s!"// {file.input}\n" else "") ++ text
  | _ => ""

end FileResult

def failedCount (files : List FileResult) : Nat := (files.filter (!·.isOk)).length

def renameReport (style : Style) (files : List FileResult) : Json :=
  let failed := failedCount files
  .object [
    ("schema_version", .whole 1),
    ("ok", .bool (failed == 0)),
    ("separator", .string style.separator),
    ("counts", .object [
      ("total", .whole files.length),
      ("succeeded", .whole (files.length - failed : Nat)),
      ("failed", .whole failed)]),
    ("files", .array (files.map FileResult.report))]

end Freshen
