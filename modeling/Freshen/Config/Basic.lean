import Freshen.Code.Piece
import Freshen.Config.Separator
import Freshen.Files.FileTree
import Freshen.Json.Reader

/-! The configuration: defaults, then a file, then what is set one by one. -/

namespace Freshen

structure ConfigFile where
  separator : Option String := none
  indent : Option String := none
deriving DecidableEq, Repr

namespace ConfigFile

def optionalString? : Json → Option (Option String)
  | .null => some none
  | .string value => some (some value)
  | _ => none

def member? (name : String) (members : List (String × Json)) : Option (Option String) :=
  match members.filter (·.1 == name) with
  | [] => some none
  | [(_, value)] => optionalString? value
  | _ => none

/-- An object with no other names, or an array with the separator and then the indent. -/
def ofJson? : Json → Option ConfigFile
  | .object members => do
    if members.all fun (name, _) => name == "separator" || name == "indent" then
      return ⟨← member? "separator" members, ← member? "indent" members⟩
    else none
  | .array [] => some {}
  | .array [separator] => do return ⟨← optionalString? separator, none⟩
  | .array [separator, indent] => do
    return ⟨← optionalString? separator, ← optionalString? indent⟩
  | _ => none

def parse? (text : String) : Option ConfigFile := (Json.parse? text).bind ofJson?

end ConfigFile

structure Config where
  folder : String
  jsonLogs : Bool := false
  verbosity : Nat := 0
  separator : String := ({} : Style).separator
  indent : Option String := none
deriving DecidableEq, Repr

namespace Config

def fileName : String := "rebind.json"

def withSeparator (config : Config) (separator : String) : Except Error Config :=
  match separatorFault? separator with
  | some fault => .error (.invalidSeparator separator fault)
  | none => .ok { config with separator }

def withIndent (config : Config) (indent : String) : Config := { config with indent := some indent }

def withVerbosity (config : Config) (verbosity : Nat) : Config := { config with verbosity }

def withJsonLogs (config : Config) (jsonLogs : Bool) : Config := { config with jsonLogs }

def style (config : Config) : Style := ⟨config.separator, config.indent⟩

def ofText (folder path text : String) : Except Error Config := do
  match ConfigFile.parse? text with
  | none => throw (.configParse path)
  | some file =>
    let config ← file.separator.elim (pure { folder }) ({ folder : Config }.withSeparator ·)
    return { config with indent := file.indent }

/-- The configuration of a working folder. A file that is named has to exist; the usual one may be
missing. -/
def load (tree : FileTree) (folder : String) (named : Option String) : Except Error Config :=
  let path := Path.join folder (named.getD fileName)
  if named.isNone && !tree.isFile path then .ok { folder }
  else
    match tree.read path with
    | .ok text => ofText folder path text
    | .error _ => .error (.configRead path)

end Config

end Freshen
