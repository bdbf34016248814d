import Freshen.Files.Path

/-!
File trees. An entry is known by the names that lead to it from the root; a path is text and leads
to an entry segment by segment, through folders only.
-/

namespace Freshen

inductive Entry where
  | folder
  | file (content : ByteArray)

def Entry.isFolder : Entry → Bool
  | folder => true
  | file _ => false

inductive FileFault where
  | missing | isFolder | notText
deriving DecidableEq, Repr

def FileFault.message : FileFault → String
  | missing => "No such file or directory (os error 2)"
  | isFolder => "Is a directory (os error 21)"
  | notText => "stream did not contain valid UTF-8"

structure FileTree where
  /-- All entries but the root. The folders on the way to an entry are entries too. -/
  entries : List (List String × Entry) := []
  /-- Where relative paths start. -/
  workingFolder : List String := []

namespace FileTree

def entry? (tree : FileTree) (names : List String) : Option Entry :=
  if names = [] then some .folder else tree.entries.lookup names

def hasFolder (tree : FileTree) (names : List String) : Bool :=
  (tree.entry? names).any Entry.isFolder

def descend? (tree : FileTree) (names : List String) (segment : String) : Option (List String) :=
  if tree.hasFolder names then
    if Path.isIdle segment then some names
    else if segment = ".." then some names.dropLast
    else if (tree.entry? (names ++ [segment])).isSome then some (names ++ [segment])
    else none
  else none

def start (tree : FileTree) (path : String) : List String :=
  if Path.isAbsolute path then [] else tree.workingFolder

def locate? (tree : FileTree) (path : String) : Option (List String) :=
  if path = "" then none
  else (Path.segments path).foldlM tree.descend? (tree.start path)

/-- Where the entry of a path is, or would be: its folder exists, and the last segment is a name. -/
def place? (tree : FileTree) (path : String) : Option (List String) := do
  let segments := Path.segments path
  let last ← segments.getLast?
  let folder ← segments.dropLast.foldlM tree.descend? (tree.start path)
  if tree.hasFolder folder ∧ ¬ Path.isIdle last ∧ last ≠ ".." then some (folder ++ [last]) else none

def entryAt? (tree : FileTree) (path : String) : Option Entry :=
  (tree.locate? path).bind tree.entry?

def isFolder (tree : FileTree) (path : String) : Bool :=
  (tree.entryAt? path).any Entry.isFolder

def isFile (tree : FileTree) (path : String) : Bool :=
  (tree.entryAt? path).any (!·.isFolder)

def read (tree : FileTree) (path : String) : Except FileFault String :=
  match tree.entryAt? path with
  | none => .error .missing
  | some .folder => .error .isFolder
  | some (.file content) =>
    match String.fromUTF8? content with
    | some text => .ok text
    | none => .error .notText

def insert (tree : FileTree) (names : List String) (entry : Entry) : FileTree :=
  { tree with entries := tree.entries.filter (·.1 ≠ names) ++ [(names, entry)] }

def write (tree : FileTree) (path text : String) : Except FileFault FileTree :=
  match tree.place? path with
  | none => .error .missing
  | some names =>
    if tree.hasFolder names then .error .isFolder
    else .ok (tree.insert names (.file text.toUTF8))

/-- Makes a folder whose own folder exists, unless it is there. Slashes at the end of the path do
not make room where a file stands. -/
def makeFolder? (tree : FileTree) (path : String) : Option FileTree :=
  match tree.locate? path with
  | some names => if tree.hasFolder names then some tree else none
  | none =>
    let segments := ((Path.segments path).reverse.dropWhile (· == "")).reverse
    (tree.place? (Path.ofSegments segments)).bind fun names =>
      if (tree.entry? names).isSome then none else some (tree.insert names .folder)

/-- Makes a folder and those on the way to it. Where one of them cannot be made, the tree is left
with those before it. -/
def makeFolders (tree : FileTree) (path : String) : Except FileTree FileTree :=
  (Path.ancestors path).foldlM (fun tree path =>
    (tree.makeFolder? path).elim (.error tree) .ok) tree

/-- The files at any depth below a folder, by the names that lead to them from it. -/
def filesBelow (tree : FileTree) (names : List String) : List (List String) :=
  tree.entries.filterMap fun (key, entry) =>
    if names.isPrefixOf key ∧ ¬ entry.isFolder then some (key.drop names.length) else none

end FileTree

end Freshen
