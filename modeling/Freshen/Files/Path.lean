/-! Paths as text, with slashes between their segments. -/

namespace Freshen.Path

def isAbsolute (path : String) : Bool := path.toList.head? == some '/'

/-- `path` seen from `base`. An absolute path stands for itself. -/
def join (base path : String) : String :=
  if isAbsolute path then path
  else if base.toList.getLast?.all (· == '/') then base ++ path
  else base ++ "/" ++ path

def splitSlash : List Char → List (List Char)
  | [] => [[]]
  | c :: rest =>
    if c = '/' then [] :: splitSlash rest
    else
      match splitSlash rest with
      | [] => [[c]]
      | first :: more => (c :: first) :: more

def segments (path : String) : List String := (splitSlash path.toList).map String.ofList

def ofSegments (segments : List String) : String := String.intercalate "/" segments

def isIdle (segment : String) : Bool := segment == "" || segment == "."

/-- The paths that have to exist before `path` can, the shortest first, and then `path`. Where there
is no path, nothing has to exist. -/
def ancestors (path : String) : List String :=
  let parts := segments path
  let ends := (List.range parts.length).filter fun i => parts[i]?.any (!isIdle ·)
  if path = "" then [] else ends.dropLast.map (fun i => ofSegments (parts.take (i + 1))) ++ [path]

/-- The name that a path ends in. Idle segments behind it do not count, and `..` is no name. -/
def fileName? (path : String) : Option String :=
  ((segments path).filter (!isIdle ·)).getLast?.filter (· ≠ "..")

/-- The part of a file name before its last dot, and the extension behind it. A dot in front is no
such dot. -/
def splitExtension (name : String) : String × Option String :=
  let reversed := name.toList.reverse
  match reversed.dropWhile (· ≠ '.') with
  | [] => (name, none)
  | [_] => (name, none)
  | _ :: before =>
    (String.ofList before.reverse, some (String.ofList (reversed.takeWhile (· ≠ '.')).reverse))

def stem (path : String) : String := (fileName? path).elim "" fun name => (splitExtension name).1

def extension? (path : String) : Option String :=
  (fileName? path).bind fun name => (splitExtension name).2

def nameLE : List Char → List Char → Bool
  | [], _ => true
  | _ :: _, [] => false
  | a :: first, b :: second =>
    if a.toNat < b.toNat then true
    else if a.toNat = b.toNat then nameLE first second
    else false

def namesLE : List String → List String → Bool
  | [], _ => true
  | _ :: _, [] => false
  | a :: first, b :: second =>
    if a = b then namesLE first second else nameLE a.toList b.toList

end Freshen.Path
