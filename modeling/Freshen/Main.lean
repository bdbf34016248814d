import Freshen.Command.Run

/-!
The command. What it needs of the file system is gathered first, the command line is run on that,
and then the files it wrote are stored.
-/

namespace Freshen

inductive Reach where
  | entry | children | everything
deriving DecidableEq

/-- Adds an entry of the file system to a tree, and what is below it as far as asked. A search below
a folder does not follow links, and needs the content of program files only. -/
partial def gather (reach : Reach) (tree : FileTree) (names : List String) : IO FileTree := do
  let path := (← IO.currentDir) / ("/" ++ Path.ofSegments names)
  if ← path.isDir then
    let tree := if names = [] then tree else tree.insert names .folder
    match reach with
    | .entry => return tree
    | .children =>
      (← path.readDir).foldlM (fun tree child =>
        gather .entry tree (names ++ [child.fileName])) tree
    | .everything =>
      (← path.readDir).foldlM (fun tree child => do
        let names := names ++ [child.fileName]
        match (← child.path.symlinkMetadata).type with
        | .symlink => return tree
        | .file =>
          if isProgramFile names then gather .entry tree names
          else if (tree.entry? names).isSome then return tree
          else return tree.insert names (.file ByteArray.empty)
        | _ => gather .everything tree names) tree
  else if ← path.pathExists then
    return tree.insert names (.file (← IO.FS.readBinFile path))
  else return tree

def gatherPath (reach : Reach) (tree : FileTree) (path : String) : IO FileTree := do
  let mut tree := tree
  let mut names := tree.start path
  for segment in Path.segments path do
    if segment = ".." then names := names.dropLast
    else if !Path.isIdle segment then
      names := names ++ [segment]
      tree ← gather .entry tree names
  gather reach tree names

/-- The part of the file system that a command looks at. -/
def observe (words : List String) : IO FileTree := do
  let here := (Path.segments (← IO.currentDir).toString).filter (!Path.isIdle ·)
  let start : FileTree := { workingFolder := here }
  let tree ← gatherPath .entry start start.workingPath
  match Request.ofWords words with
  | .run invocation =>
    let folder := Path.join (invocation.folder.getD tree.workingPath)
    let tree ← gatherPath .entry tree (folder (invocation.config.getD Config.fileName))
    match invocation.command with
    | .version => return tree
    | .rename paths outFolder _ =>
      let tree ← (paths.map folder).foldlM (gatherPath .everything) tree
      (outFolder.map folder).toList.foldlM (gatherPath .children) tree
  | _ => return tree

def store (before after : FileTree) : IO Unit := do
  for (names, entry) in after.entries do
    let path := "/" ++ Path.ofSegments names
    match before.entry? names, entry with
    | none, .folder => IO.FS.createDirAll path
    | some (.file old), .file content =>
      if old.data != content.data then IO.FS.writeBinFile path content
    | _, .file content => IO.FS.writeBinFile path content
    | _, .folder => pure ()

end Freshen

open Freshen in
def main (words : List String) : IO UInt32 := do
  let tree ← observe words
  let outcome := runWords words (← IO.getEnv "REBIND_SEPARATOR") tree
  store tree outcome.tree
  IO.print outcome.output
  for line in outcome.errors do
    IO.eprintln line
  if let some failure := outcome.failure then
    IO.eprintln s!"Error: {failure.message}"
  return UInt32.ofNat outcome.status
