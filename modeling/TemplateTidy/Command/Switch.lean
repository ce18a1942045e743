import TemplateTidy.Files.Tree
import TemplateTidy.Settings.Load
import TemplateTidy.Text.Difference

/-! # Switches

The switches of the command line.  All arguments are read first, then the values are taken in the
order in which their switches came; what is no switch is a source. -/

namespace TemplateTidy.Command

open Text Files

inductive Taking where
  | nothing
  | text
  | number
  /-- A path that exists, or a dash. -/
  | path
  /-- Two texts; each use adds a pair. -/
  | pair
deriving DecidableEq, Repr

/-- The number of arguments that a switch takes. -/
def Taking.count : Taking → Nat
  | .nothing => 0
  | .pair => 2
  | _ => 1

/-- A switch, by its names and by what it sets. -/
structure Switch where
  long : String
  short : Option Char := none
  taking : Taking := .nothing
  set : Overrides → Value → Overrides

/-- The switches, in the order of the manual. -/
def switches : List Switch :=
  [⟨"--extension", some 'e', .text, fun o v => { o with extension := v }⟩,
    ⟨"--ignore", some 'i', .text, fun o v => { o with ignoreCodes := v }⟩,
    ⟨"--reformat", none, .nothing, fun o v => { o with reformat := v }⟩,
    ⟨"--check", none, .nothing, fun o v => { o with check := v }⟩,
    ⟨"--indent", none, .number, fun o v => { o with indent := v }⟩,
    ⟨"--quiet", none, .nothing, fun o v => { o with quiet := v }⟩,
    ⟨"--profile", none, .text, fun o v => { o with profile := v }⟩,
    ⟨"--require-pragma", none, .nothing, fun o v => { o with requirePragma := v }⟩,
    ⟨"--lint", none, .nothing, fun o v => { o with lint := v }⟩,
    ⟨"--use-gitignore", none, .nothing, fun o v => { o with useGitignore := v }⟩,
    ⟨"--warn", none, .nothing, fun o v => { o with warn := v }⟩,
    ⟨"--preserve-leading-space", none, .nothing, fun o v => { o with preserveLeadingSpace := v }⟩,
    ⟨"--preserve-blank-lines", none, .nothing, fun o v => { o with preserveBlankLines := v }⟩,
    ⟨"--format-css", none, .nothing, fun o v => { o with formatCss := v }⟩,
    ⟨"--format-js", none, .nothing, fun o v => { o with formatJs := v }⟩,
    ⟨"--configuration", none, .path, fun o v => { o with configuration := v }⟩,
    ⟨"--statistics", none, .nothing, fun o v => { o with statistics := v }⟩,
    ⟨"--include", none, .text, fun o v => { o with includeCodes := v }⟩,
    ⟨"--ignore-case", none, .nothing, fun o v => { o with ignoreCase := v }⟩,
    ⟨"--ignore-blocks", none, .text, fun o v => { o with ignoreBlocks := v }⟩,
    ⟨"--blank-line-after-tag", none, .text, fun o v => { o with blankLineAfterTag := v }⟩,
    ⟨"--blank-line-before-tag", none, .text, fun o v => { o with blankLineBeforeTag := v }⟩,
    ⟨"--line-break-after-multiline-tag", none, .nothing,
      fun o v => { o with lineBreakAfterMultilineTag := v }⟩,
    ⟨"--custom-blocks", none, .text, fun o v => { o with customBlocks := v }⟩,
    ⟨"--custom-html", none, .text, fun o v => { o with customHtml := v }⟩,
    ⟨"--exclude", none, .text, fun o v => { o with exclude := v }⟩,
    ⟨"--extend-exclude", none, .text, fun o v => { o with extendExclude := v }⟩,
    ⟨"--linter-output-format", none, .text, fun o v => { o with linterOutputFormat := v }⟩,
    ⟨"--max-line-length", none, .number, fun o v => { o with maxLineLength := v }⟩,
    ⟨"--max-attribute-length", none, .number, fun o v => { o with maxAttributeLength := v }⟩,
    ⟨"--format-attribute-template-tags", none, .nothing,
      fun o v => { o with formatAttributeTemplateTags := v }⟩,
    ⟨"--per-file-ignores", none, .pair, fun o v =>
      match v with
      | .tuple [a, b] => { o with perFileIgnores := o.perFileIgnores ++ [(a.render, b.render)] }
      | _ => o⟩,
    ⟨"--indent-css", none, .number, fun o v => { o with indentCss := v }⟩,
    ⟨"--indent-js", none, .number, fun o v => { o with indentJs := v }⟩,
    ⟨"--close-void-tags", none, .nothing, fun o v => { o with closeVoidTags := v }⟩,
    ⟨"--no-line-after-yaml", none, .nothing, fun o v => { o with noLineAfterYaml := v }⟩]

/-- The long names that a misspelt switch is compared with. -/
def longNames : List String :=
  switches.map (·.long) ++ ["--version", "--help"]

/-- The names of a switch in a message. -/
def Switch.hint (w : Switch) : String :=
  let quoted (s : String) : String := "'" ++ s ++ "'"
  match w.short with
  | some c => quoted (String.ofList ['-', c]) ++ " / " ++ quoted w.long
  | none => quoted w.long

/-! ### Faults -/

/-- What can be wrong with the arguments. -/
inductive Fault where
  | noSuchSwitch (name : String) (close : List String)
  | needsArguments (name : String) (count : Nat)
  | takesNothing (name : String)
  | notANumber (hint : String) (given : String)
  | missingPath (hint : String) (given : String)
  | missingSource
deriving DecidableEq, Repr

def sourceHint : String := "'SRC ...'"

def Fault.message : Fault → String
  | .noSuchSwitch name close =>
    "No such option: " ++ name ++
      match sortedNames close with
      | [] => ""
      | [one] => " Did you mean " ++ one ++ "?"
      | many => " (Possible options: " ++ String.intercalate ", " many ++ ")"
  | .needsArguments name count =>
    "Option " ++ Value.quote name ++
      (if count = 1 then " requires an argument."
       else " requires " ++ toString count ++ " arguments.")
  | .takesNothing name => "Option " ++ Value.quote name ++ " does not take a value."
  | .notANumber hint given =>
    "Invalid value for " ++ hint ++ ": " ++ Value.quote given ++ " is not a valid integer."
  | .missingPath hint given =>
    "Invalid value for " ++ hint ++ ": Path " ++ Value.quote given ++ " does not exist."
  | .missingSource => "Missing argument " ++ sourceHint ++ "."

/-- Whether the message comes after a reminder of the usage. -/
def Fault.remindsOfUsage : Fault → Bool
  | .needsArguments .. | .takesNothing _ => false
  | _ => true

/-- How a program of this name is called. -/
def usage (program : String) : String :=
  "Usage: " ++ program ++ " [OPTIONS] SRC ..."

/-- All that is written about a fault by a program of this name. -/
def Fault.report (program : String) (f : Fault) : String :=
  (if f.remindsOfUsage then
    usage program ++ "\nTry '" ++ program ++ " -h' for help.\n\n"
   else "") ++ "Error: " ++ f.message ++ "\n"

/-! ### Reading arguments -/

/-- The arguments as read: the uses of switches in order, and the sources. -/
structure Reading where
  uses : List (Switch × List String) := []
  sources : List String := []
  /-- Whether help is asked for. -/
  help : Bool := false

/-- A step of reading: what is read so far and what is still to be read. -/
abbrev Step := Except Fault (Reading × List String)

/-- Adds the use of a switch with the arguments that it takes from those that follow. -/
def use (name : String) (w : Switch) (r : Reading) (rest : List String) : Step :=
  let n := w.taking.count
  if rest.length < n then .error (.needsArguments name n)
  else .ok ({ r with uses := r.uses ++ [(w, rest.take n)] }, rest.drop n)

/-- Reads a bundle of short switches; one that takes an argument takes what follows it. -/
def readShort (r : Reading) (rest : List String) : List Char → Step
  | [] => .ok (r, rest)
  | c :: more =>
    let name := String.ofList ['-', c]
    if c == 'h' then readShort { r with help := true } rest more
    else
      match switches.find? fun w => w.short == some c with
      | none => .error (.noSuchSwitch name [])
      | some w =>
        if w.taking.count = 0 then
          match use name w r rest with
          | .ok (r, rest) => readShort r rest more
          | .error f => .error f
        else use name w r (if more.isEmpty then rest else String.ofList more :: rest)

/-- Reads one argument that begins with a dash. -/
def readSwitch (r : Reading) (arg : String) (rest : List String) : Step :=
  let chars := arg.toList
  let name := chars.takeWhile (· != '=')
  let value : Option String :=
    if name.length < chars.length then some (String.ofList (chars.drop (name.length + 1))) else none
  let long := String.ofList name
  match switches.find? fun w => w.long == long with
  | some w =>
    if w.taking.count = 0 then
      if value.isSome then .error (.takesNothing long) else use long w r rest
    else use long w r (value.toList ++ rest)
  | none =>
    if long == "--help" || long == "--version" then
      if value.isSome then .error (.takesNothing long) else .ok ({ r with help := true }, rest)
    else if chars.take 2 == ['-', '-'] then
      .error (.noSuchSwitch long ((Difference.closeWords name (longNames.map String.toList)).map String.ofList))
    else readShort r rest (chars.drop 1)

/-- Reads all arguments.  After two dashes everything is a source. -/
def readArguments : (fuel : Nat) → Reading → List String → Except Fault Reading
  | 0, r, _ | _, r, [] => .ok r
  | fuel + 1, r, arg :: rest =>
    if arg = "--" then .ok { r with sources := r.sources ++ rest }
    else if arg.startsWith "-" && 1 < arg.length then
      match readSwitch r arg rest with
      | .ok (r, rest) => readArguments fuel r rest
      | .error f => .error f
    else readArguments fuel { r with sources := r.sources ++ [arg] } rest

/-! ### Taking values -/

/-- Whether an argument leads to a file or a directory, or is a dash. -/
def leadsSomewhere (t : Tree) (arg : String) : Bool :=
  arg = "-" || (arg != "" && t.has (Path.ofString arg))

/-- The value that the arguments of a switch stand for. -/
def Switch.value (w : Switch) (t : Tree) (args : List String) : Except Fault Value :=
  match w.taking, args with
  | .nothing, _ => .ok (.bool true)
  | .number, [arg] =>
    match wholeNumber? arg.toList with
    | some i => .ok (.int i)
    | none => .error (.notANumber w.hint arg)
  | .path, [arg] =>
    if leadsSomewhere t arg then .ok (.text arg) else .error (.missingPath w.hint arg)
  | .pair, [a, b] => .ok (.tuple [.text a, .text b])
  | _, [arg] => .ok (.text arg)
  | _, _ => .ok .null

/-- The uses that count: the last one of each switch, at the place of the first; all pairs. -/
def lastUses (uses : List (Switch × List String)) : List (Switch × List String) :=
  let names := (uses.map (·.1.long)).eraseDups
  names.flatMap fun name =>
    let own := uses.filter (·.1.long == name)
    match own.getLast? with
    | some u => if u.1.taking = .pair then own else [u]
    | none => []

/-- A command line that is in order. -/
structure Request where
  overrides : Overrides
  sources : List String
  help : Bool := false

/-- Without a wish for a format or a check, the files are linted. -/
def Overrides.withDefaultJob (o : Overrides) : Overrides :=
  { o with lint := .bool (o.lint.truthy || !(o.reformat.truthy || o.check.truthy)) }

/-- Reads a command line. -/
def Request.ofArguments (t : Tree) (args : List String) : Except Fault Request := do
  let r ← readArguments args.length {} args
  if r.help then return { overrides := {}, sources := [], help := true }
  let overrides ← (lastUses r.uses).foldlM (fun o (w, args) => return w.set o (← w.value t args)) {}
  match r.sources.find? fun arg => !leadsSomewhere t arg with
  | some arg => throw (.missingPath sourceHint arg)
  | none => pure ()
  if r.sources.isEmpty then throw .missingSource
  return { overrides := Overrides.withDefaultJob overrides, sources := r.sources }

end TemplateTidy.Command
