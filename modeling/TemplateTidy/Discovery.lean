import TemplateTidy.Files.Glob
import TemplateTidy.Journal
import TemplateTidy.Settings.Basic

/-! # Discovery

Which files a run works on.  A file that is named is taken; below a directory the files with the
extension are taken unless their path is excluded.  Settings may further ask for a pragma, a comment in
the first line, and may leave out what the ignore file lists. -/

namespace TemplateTidy.Discovery

open Text Files

/-! ### Pragmas -/

/-- A pattern in the plain dialect. -/
def mark (source : String) : Pattern :=
  Pattern.ofSource { strict := true } source

/-- A pragma in a comment of the document. -/
def documentMarks : List Pattern :=
  [mark r"<!--\s*djlint\:on\s*-->"]

/-- A pragma in a short template comment. -/
def shortMark : Pattern :=
  mark r"\x7b\x23\s*djlint\:on\s*\x23\x7d"

/-- A pragma in a template comment, short or as a block. -/
def blockMarks : List Pattern :=
  [shortMark, mark r"\x7b%\s*comment\s*%\x7d\s*djlint\:on\s*\x7b%\s*endcomment\s*%\x7d"]

/-- A pragma in a comment between doubled braces with dashes. -/
def dashMarks : List Pattern :=
  [mark r"\x7b\x7b!--\s*djlint\:on\s*--\x7d\x7d"]

/-- A pragma in a comment between doubled braces with slashes and stars. -/
def starMarks : List Pattern :=
  [mark r"\x7b\x7b-?\s*/\*\s*djlint\:on\s*\*/\s*-?\x7d\x7d"]

def pragmas : List (String × List Pattern) :=
  [("html", documentMarks), ("django", blockMarks ++ documentMarks),
    ("jinja", blockMarks ++ documentMarks), ("nunjucks", [shortMark] ++ documentMarks),
    ("handlebars", dashMarks ++ documentMarks), ("golang", starMarks ++ documentMarks),
    ("angular", documentMarks),
    ("all", blockMarks ++ [shortMark] ++ dashMarks ++ starMarks ++ documentMarks)]

/-- The number of bytes that are read at a time. -/
def chunkSize : Nat := 8192

/-- The text of the first bytes of a file, where a character may be cut off at the end. -/
def decodeBeginning (bytes : ByteArray) : Outcome (List Char) :=
  let dropped := [0, 1, 2, 3].find? fun n =>
    n ≤ bytes.size && (String.fromUTF8? (bytes.extract 0 (bytes.size - n))).isSome &&
      (n == 0 || startsCharacter n (bytes.get! (bytes.size - n)).toNat)
  match dropped with
  | some n => Tree.decode (bytes.extract 0 (bytes.size - n))
  | none => .error .badEncoding
where
  /-- Whether a byte begins a character of more than `n` bytes. -/
  startsCharacter (n b : Nat) : Bool :=
    (n < 2 && 0xC2 ≤ b && b < 0xE0) || (n < 3 && 0xE0 ≤ b && b < 0xF0) ||
      (n < 4 && 0xF0 ≤ b && b < 0xF5)

/-- The first line of a file.  Only as much is decoded as is read until the line ends. -/
def firstLine (bytes : ByteArray) : Outcome (List Char) := do
  let line (s : List Char) : List Char :=
    let s := unifyLineEnds s
    let body := s.takeWhile (· != '\n')
    if body.length < s.length then body ++ ['\n'] else body
  match bytes.toList.findIdx? fun b => b == 10 || b == 13 with
  | none => return line (← Tree.decode bytes)
  | some i => return line (← decodeBeginning (bytes.extract 0 ((i / chunkSize + 1) * chunkSize)))

/-- Whether a file has the pragma that the settings ask for. -/
def hasPragma (s : Settings) (t : Tree) (p : Path) : Outcome Bool := do
  if s.requirePragma.isBool false then return true
  let line ← firstLine (← t.readBytes p)
  match pragmas.lookup s.profile with
  | none => throw (.missingKey (.text s.profile))
  | some marks => return marks.any fun m => (m.matchStart? line.toArray).isSome

/-! ### Files -/

/-- Whether the ignore file lets a path through. -/
def passesIgnoreFile (s : Settings) (p : Path) : Bool :=
  !s.useGitignore.truthy || !s.gitignore.ignores p.render

/-- Whether the settings exclude a path. -/
def isExcluded (s : Settings) (p : Path) : Outcome Bool :=
  match s.exclude with
  | .text source => do
    return (← compile { strict := true, verbose := true } source.toList).occurs p.render.toList.toArray
  | _ => .error .wrongType

/-- Whether a file that is found below a directory is taken. -/
def isTaken (s : Settings) (t : Tree) (p : Path) : Outcome Bool := do
  if ← isExcluded s p then return false
  if !(← hasPragma s t p) then return false
  return passesIgnoreFile s p

/-- The extension of the files below a directory, without its leading dot. -/
def extensionOf (s : Settings) : String :=
  match s.extension.toList with
  | '.' :: rest => String.ofList rest
  | _ => s.extension

/-- The files that one source stands for. -/
def filesOf (s : Settings) (t : Tree) (source : Path) : Outcome (List Path) := do
  let p := t.resolve source
  let named ←
    if t.isFile p then
      if ← hasPragma s t p then pure (passesIgnoreFile s p) else pure false
    else pure false
  if named then return [p]
  let found ← Glob.search t p ("**/*." ++ extensionOf s)
  found.filterM (isTaken s t)

/-- The files that a run works on. -/
def discover (s : Settings) (t : Tree) (sources : List Path) : Run (List Path) := do
  let found := (← Stateful.lift (sources.mapM (filesOf s t))).flatten
  if found.isEmpty then Run.say "No files to check! 😢"
  return found

end TemplateTidy.Discovery
