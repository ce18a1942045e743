import TemplateTidy.Command.Run

/-! # The command line

Reads the files that a command line can see, runs it on them, prints what it says, and writes the files
that it changes. -/

namespace TemplateTidy.Main

open Files

/-- Names that mark a project or hold its settings. -/
def markers : List String :=
  [".git", ".hg", "pyproject.toml", ".djlintrc", ".gitignore", ".djlint_rules.yaml"]

/-- Directories whose contents are of no interest. -/
def closedDirectories : List String :=
  [".git", ".hg"]

/-- An entry of a directory with all that is below it, by name.  What cannot be read is left out. -/
partial def entriesOf (e : IO.FS.DirEntry) : IO (List (Path × Entry)) := do
  let path := Path.ofString e.path.toString
  try
    if ← e.path.isDir then
      if closedDirectories.contains e.fileName then return [(path, .directory)]
      let children := (← e.path.readDir).toList.mergeSort fun a b => !decide (b.fileName < a.fileName)
      return (path, .directory) :: (← children.mapM entriesOf).flatten
    else return [(path, .file (← IO.FS.readBinFile e.path))]
  catch _ => return []

/-- The directories above a path, with their markers. -/
def entriesAbove (path : Path) : IO (List (Path × Entry)) := do
  let here ← IO.currentDir
  let found ← path.parents.mapM fun above => do
    let kept ← markers.mapM fun name =>
      entriesOf { root := here / above.render, fileName := name }
    return (above, Entry.directory) :: kept.flatten
  return found.flatten

/-- The files below and above a path. -/
def entriesAround (name : String) : IO (List (Path × Entry)) := do
  let here ← IO.currentDir
  let path := (Path.ofString here.toString).resolve (Path.ofString name)
  return (← entriesOf { root := here, fileName := path.render }) ++ (← entriesAbove path)

/-- The paths that an argument may name: itself, or what comes after an equals sign. -/
def namesOf (arg : String) : List String :=
  (arg.splitOn "=").filter fun name => name != "" && !name.startsWith "-"

/-- The file tree that arguments can see. -/
def treeOf (args : List String) : IO Tree := do
  let here ← IO.currentDir
  let entries ← (here.toString :: args.flatMap namesOf).mapM entriesAround
  return { current := Path.ofString here.toString, entries := entries.flatten }

/-- The rest of a stream. -/
partial def readAll (stream : IO.FS.Stream) (read : String) : IO String := do
  let line ← stream.getLine
  if line.isEmpty then return read else readAll stream (read ++ line)

/-- Writes the files that differ between two trees. -/
def writeChanges (before after : Tree) : IO Unit := do
  for (path, entry) in after.entries do
    if path != Command.inputPath then
      match entry, before.entry? path with
      | .file bytes, some (.file old) => if bytes != old then IO.FS.writeBinFile path.render bytes
      | _, _ => pure ()

end TemplateTidy.Main

open TemplateTidy in
/-- Runs the command line. -/
def main (args : List String) : IO UInt32 := do
  let tree ← Main.treeOf args
  let input ← if args.contains "-" then Main.readAll (← IO.getStdin) "" else pure ""
  let finished := Command.run Lint.builtinChecks "djlint" args input.toList tree
  IO.print finished.journal.text
  Main.writeChanges tree finished.tree
  match finished.ending with
  | .exit status => return status.toUInt32
  | .refused report =>
    IO.eprint report
    return 2
  | .failed failure =>
    IO.eprintln failure.message
    return 1
