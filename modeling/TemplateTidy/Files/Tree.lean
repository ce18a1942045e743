import TemplateTidy.Failure
import TemplateTidy.Files.Path
import TemplateTidy.Text.Line

/-! # File trees

The files that a run can see, as a value: directories, and files with their bytes, under absolute
paths.  Files keep the order in which they were first written. -/

namespace TemplateTidy.Files

/-- What stands under a path. -/
inductive Entry where
  | directory
  | file (bytes : ByteArray)

/-- A tree of files with a current directory. -/
structure Tree where
  current : Path
  entries : List (Path × Entry)

namespace Tree

/-- The absolute form of a path. -/
def resolve (t : Tree) (p : Path) : Path :=
  t.current.resolve p

/-- What stands under a path. -/
def entry? (t : Tree) (p : Path) : Option Entry :=
  let full := t.resolve p
  if full.parts.isEmpty then some .directory
  else t.entries.lookup full

/-- Whether a path leads to a file. -/
def isFile (t : Tree) (p : Path) : Bool :=
  match t.entry? p with
  | some (.file _) => true
  | _ => false

/-- Whether a path leads to a directory. -/
def isDirectory (t : Tree) (p : Path) : Bool :=
  match t.entry? p with
  | some .directory => true
  | _ => false

/-- Whether a path leads anywhere. -/
def has (t : Tree) (p : Path) : Bool :=
  (t.entry? p).isSome

/-- Adds an entry, or changes the one that is there. -/
def put (t : Tree) (p : Path) (e : Entry) : Tree :=
  let full := t.resolve p
  if t.entries.any (·.1 = full) then
    { t with entries := t.entries.map fun x => if x.1 = full then (full, e) else x }
  else { t with entries := t.entries ++ [(full, e)] }

/-- Adds the directories above a path. -/
def putParents (t : Tree) (p : Path) : Tree :=
  (t.resolve p).parents.foldl (fun t d =>
    if d.parts.isEmpty || t.has d then t else t.put d .directory) t

def addDirectory (t : Tree) (p : Path) : Tree :=
  let t := t.putParents p
  if t.has p then t else t.put p .directory

def addFile (t : Tree) (p : Path) (bytes : ByteArray) : Tree :=
  (t.putParents p).put p (.file bytes)

def readBytes (t : Tree) (p : Path) : Outcome ByteArray :=
  match t.entry? p with
  | some (.file bytes) => .ok bytes
  | some .directory => .error (.isDirectory p.render)
  | none =>
    if (t.resolve p).parents.any t.isFile then .error (.notADirectory p.render)
    else .error (.missingFile p.render)

/-- The text that bytes encode. -/
def decode (bytes : ByteArray) : Outcome (List Char) :=
  match String.fromUTF8? bytes with
  | some s => .ok s.toList
  | none => .error .badEncoding

/-- The text of a file as it is. -/
def readExactly (t : Tree) (p : Path) : Outcome (List Char) := do
  decode (← t.readBytes p)

/-- The text of a file, with line ends of every platform read as line feeds. -/
def readText (t : Tree) (p : Path) : Outcome (List Char) := do
  return Text.unifyLineEnds (← t.readExactly p)

/-- The files below a directory, with their paths. -/
def filesBelow (t : Tree) (p : Path) : List Path :=
  let full := t.resolve p
  (t.entries.map (·.1)).filter fun q =>
    full.parts.length < q.parts.length && full.parts.isPrefixOf q.parts

end Tree

end TemplateTidy.Files
