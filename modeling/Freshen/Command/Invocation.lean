/-!
The command line. Words are read from left to right, and the first one that settles the matter
does: a fault, or a request for help or for the version. General options may stand before and after
the command; where both give a value, the one after it counts.
-/

namespace Freshen

inductive Command where
  | version
  | rename (paths : List String) (outFolder : Option String) (separator : Option String)
deriving DecidableEq, Repr

structure Invocation where
  verbosity : Nat := 0
  json : Bool := false
  folder : Option String := none
  config : Option String := none
  command : Command := .version
deriving DecidableEq, Repr

inductive Request where
  | run (invocation : Invocation)
  | showVersion
  | showHelp
  | misuse
deriving DecidableEq, Repr

namespace Invocation

inductive Stage where
  | general | version | rename
deriving DecidableEq, Repr

inductive Flag where
  | verbose | json | version | help
deriving DecidableEq, Repr

inductive Setting where
  | folder | config | outFolder | separator
deriving DecidableEq, Repr

inductive OptionKind where
  | flag (flag : Flag)
  | setting (setting : Setting)
deriving DecidableEq, Repr

def long? (stage : Stage) (name : String) : Option OptionKind :=
  match name, stage with
  | "verbose", _ => some (.flag .verbose)
  | "json", _ => some (.flag .json)
  | "help", _ => some (.flag .help)
  | "version", .general => some (.flag .version)
  | "cwd", _ => some (.setting .folder)
  | "config", _ => some (.setting .config)
  | "out-dir", .rename => some (.setting .outFolder)
  | "separator", .rename => some (.setting .separator)
  | _, _ => none

def short? (stage : Stage) (letter : Char) : Option OptionKind :=
  match letter, stage with
  | 'v', _ => some (.flag .verbose)
  | 'h', _ => some (.flag .help)
  | 'V', .general => some (.flag .version)
  | 'o', .rename => some (.setting .outFolder)
  | _, _ => none

structure Gathered where
  verbosity : Nat := 0
  json : Bool := false
  folder : Option String := none
  config : Option String := none
  outFolder : Option String := none
  separator : Option String := none
  paths : List String := []

abbrev Reading := Except Request

def Gathered.raise (gathered : Gathered) : Flag → Reading Gathered
  | .verbose => .ok { gathered with verbosity := gathered.verbosity + 1 }
  | .json => if gathered.json then .error .misuse else .ok { gathered with json := true }
  | .version => .error .showVersion
  | .help => .error .showHelp

def onlyPath (before : Option String) (value : String) : Reading (Option String) :=
  if before.isSome || value == "" then .error .misuse else .ok (some value)

def Gathered.set (gathered : Gathered) (setting : Setting) (value : String) : Reading Gathered := do
  match setting with
  | .folder => return { gathered with folder := ← onlyPath gathered.folder value }
  | .config => return { gathered with config := ← onlyPath gathered.config value }
  | .outFolder => return { gathered with outFolder := ← onlyPath gathered.outFolder value }
  | .separator =>
    if gathered.separator.isSome then throw .misuse
    return { gathered with separator := some value }

def Gathered.addPath (gathered : Gathered) (path : String) : Reading Gathered :=
  if path = "" then .error .misuse else .ok { gathered with paths := gathered.paths ++ [path] }

/-- The letters after a single dash. A setting takes the rest of the word as its value, with or
without `=`; if nothing is left, it waits for the next word. -/
def letters (stage : Stage) (gathered : Gathered) : List Char → Reading (Gathered × Option Setting)
  | [] => .ok (gathered, none)
  | letter :: rest => do
    match short? stage letter with
    | none => throw .misuse
    | some (.flag flag) => letters stage (← gathered.raise flag) rest
    | some (.setting setting) =>
      match rest with
      | [] => return (gathered, some setting)
      | '=' :: value => return (← gathered.set setting (String.ofList value), none)
      | value => return (← gathered.set setting (String.ofList value), none)

def splitLong (word : List Char) : String × Option String :=
  let name := String.ofList (word.takeWhile (· ≠ '='))
  match word.dropWhile (· ≠ '=') with
  | [] => (name, none)
  | _ :: value => (name, some (String.ofList value))

def longWord (stage : Stage) (gathered : Gathered) (word : List Char) :
    Reading (Gathered × Option Setting) := do
  let (name, value) := splitLong word
  match long? stage name, value with
  | some (.flag flag), none => return (← gathered.raise flag, none)
  | some (.setting setting), some value => return (← gathered.set setting value, none)
  | some (.setting setting), none => return (gathered, some setting)
  | _, _ => throw .misuse

def isOption (word : String) : Bool :=
  match word.toList with
  | '-' :: _ :: _ => true
  | _ => false

def optionWord (stage : Stage) (gathered : Gathered) (word : String) :
    Reading (Gathered × Option Setting) :=
  match word.toList with
  | '-' :: '-' :: name => longWord stage gathered name
  | _ :: rest => letters stage gathered rest
  | [] => .error .misuse

def commandWords (stage : Stage) (gathered : Gathered) : List String → Reading Gathered
  | [] => .ok gathered
  | word :: rest => do
    if word = "--" then
      if stage = .rename then rest.foldlM Gathered.addPath gathered
      else if rest = [] then return gathered
      else throw .misuse
    else if isOption word then
      let (gathered, waiting) ← optionWord stage gathered word
      match waiting, rest with
      | none, rest => commandWords stage gathered rest
      | some _, [] => throw .misuse
      | some setting, value :: rest =>
        if isOption value then throw .misuse
        else commandWords stage (← gathered.set setting value) rest
    else if stage = .rename then commandWords stage (← gathered.addPath word) rest
    else throw .misuse

def combine (general after : Gathered) (command : Command) : Invocation where
  verbosity := if after.verbosity = 0 then general.verbosity else after.verbosity
  json := general.json || after.json
  folder := after.folder.or general.folder
  config := after.config.or general.config
  command := command

def versionCommand (general : Gathered) (words : List String) : Reading Invocation := do
  return combine general (← commandWords .version {} words) .version

def renameCommand (general : Gathered) (words : List String) : Reading Invocation := do
  let after ← commandWords .rename {} words
  if after.paths = [] then throw .misuse
  return combine general after (.rename after.paths after.outFolder after.separator)

/-- Help may be asked for the whole or for one command. No command has commands of its own, and
options have no meaning here. -/
def helpCommand : List String → Request
  | [] => .showHelp
  | [word] => if word ∈ ["version", "rename", "help"] then .showHelp else .misuse
  | _ => .misuse

/-- The words up to the command, and the command. Without one, the version is printed. -/
def generalWords (gathered : Gathered) : List String → Reading Invocation
  | [] => .ok (combine gathered {} .version)
  | word :: rest => do
    if word = "--" then
      if rest = [] then return combine gathered {} .version
      else throw .misuse
    else if isOption word then
      let (gathered, waiting) ← optionWord .general gathered word
      match waiting, rest with
      | none, rest => generalWords gathered rest
      | some _, [] => throw .misuse
      | some setting, value :: rest =>
        if isOption value then throw .misuse
        else generalWords (← gathered.set setting value) rest
    else
      match word with
      | "version" => versionCommand gathered rest
      | "rename" => renameCommand gathered rest
      | "help" => throw (helpCommand rest)
      | _ => throw .misuse

end Invocation

def Request.ofWords (words : List String) : Request :=
  match Invocation.generalWords {} words with
  | .ok invocation => .run invocation
  | .error request => request

end Freshen
