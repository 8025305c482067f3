import DocMarkup.CommandLine.Sources

/-!
The command line program. It gathers the files that the request may read, and all else is
the work of `CommandLine.run`.
-/

namespace DocMarkup.Main

open CommandLine

/-- The paths that lead to a path's own directory, one component after the other. -/
def ancestors (path : Path) : List Path :=
  let components := Text.split '/' path
  (List.range (components.length - 1)).map fun count =>
    String.intercalate "/" (components.take (count + 1)) ++ "/"

def addSource (files : FileSystem) (path : Path) : IO FileSystem := do
  try
    let bytes ← IO.FS.readBinFile path
    let files := (ancestors path).foldl FileSystem.addDirectory files
    return files.addFile path bytes.toList
  catch _ =>
    try
      let _ ← (← IO.FS.realPath path).readDir
      return files.addDirectory path
    catch _ => return files

def namesIn (path : Path) : IO (List String) := do
  try
    let entries ← (← IO.FS.realPath path).readDir
    return entries.toList.map fun entry => entry.fileName
  catch _ => return []

def referenceIndexes (files : FileSystem) (request : Request) : IO (List Path) := do
  match request.referenceRoot? files with
  | none => return []
  | some root =>
      return (← namesIn root).map fun package => Path.join (Path.join root package) "index.sgml"

/-- Reads files until those that were read name no others. -/
partial def gather (request : Request) (tried : List Path) (files : FileSystem) :
    IO FileSystem := do
  let indexes ← referenceIndexes files request
  let sources := request.named ++ request.included files ++ indexes
  let untried := (sources.filter (· ∉ tried)).eraseDups
  if untried.isEmpty then return files
  gather request (untried ++ tried) (← untried.foldlM addSource files)

end DocMarkup.Main

open DocMarkup CommandLine in
def main (arguments : List String) : IO UInt32 := do
  let directory ← IO.currentDir
  let start : FileSystem := { workingDirectory := directory.components.filter (· ≠ "") }
  let files ←
    match Request.ofArguments arguments with
    | .ok request => Main.gather request [] start
    | .error _ => pure start
  let outcome := run files arguments
  IO.print outcome.output
  for notice in outcome.notices do
    IO.eprintln ("WARN " ++ notice.message)
  if let some message := outcome.error then
    IO.eprintln message
  return UInt32.ofNat outcome.code
