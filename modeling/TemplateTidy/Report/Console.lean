import TemplateTidy.Lint.Run
import TemplateTidy.Report.Count
import TemplateTidy.Report.Form
import TemplateTidy.Settings.Load

/-! # Reports

What a run tells about its files: the lines that formatting changes, what the rules find, how often
each code occurs, and a summary.  Every report answers with the number of things it counts. -/

namespace TemplateTidy.Report

open Text

def width : Nat := 80

def ruler (n : Nat) : String :=
  String.ofList (List.replicate n '─')

/-- Files with the lines that formatting changes, as a unified difference. -/
abbrev Changes := List (String × List String)

/-- Files with what the rules find in them. -/
abbrev Findings := List (String × List Lint.Finding)

/-- One part of what is told about a file. -/
inductive Part where
  | changes (c : Changes)
  | findings (f : Findings)

/-- What is told about a file. -/
abbrev FileReport := List Part

namespace FileReport

def changes? (r : FileReport) : Option Changes :=
  r.findSome? fun
    | .changes c => some c
    | .findings _ => none

def findings? (r : FileReport) : Option Findings :=
  r.findSome? fun
    | .changes _ => none
    | .findings f => some f

/-- The name by which reports are sorted: the first file of the first part. -/
def name (r : FileReport) : Outcome String :=
  let first (names : List String) : Outcome String :=
    match names with
    | [] => .error .exhausted
    | n :: _ => .ok n
  match r with
  | [] => .error .outOfRange
  | .changes c :: _ => first (c.map (·.1))
  | .findings f :: _ => first (f.map (·.1))

end FileReport

/-- The line above the report of a file. -/
def heading (s : Settings) (name : String) : String :=
  "\n" ++ relativeName s.projectRoot name ++ "\n" ++ ruler (width - 1)

/-- Tells what formatting changes.  Only the first file is shown; all files with changes are counted. -/
def tellChanges (s : Settings) (changes : Changes) : Run Nat := do
  match changes with
  | [] => return 0
  | (name, lines) :: _ =>
    if s.quiet.isBool false && !lines.isEmpty then
      Run.say (heading s name)
      for line in lines.drop 2 do
        Run.say line
    return (changes.filter fun c => !c.2.isEmpty).length

/-- The numbers of a place, for sorting. -/
def placeKey (f : Lint.Finding) : Outcome (List Int) :=
  (f.place.toList.splitOn ':').mapM fun part => (Value.text (String.ofList part)).toInt

/-- Whether the first list of numbers comes before the second or equals it. -/
def keyLE : List Int → List Int → Bool
  | [], _ => true
  | _ :: _, [] => false
  | a :: as, b :: bs => a < b || (a == b && keyLE as bs)

/-- Findings in the order of their places. -/
def sortFindings (found : List Lint.Finding) : Outcome (List Lint.Finding) := do
  let keyed ← found.mapM fun f => return (← placeKey f, f)
  return (keyed.mergeSort fun a b => keyLE a.1 b.1).map (·.2)

/-- An excerpt on one line: line ends and runs of blanks become single blanks. -/
def flattenExcerpt (s : List Char) : List Char :=
  ((s.splitBy fun a b => isSpace a && isSpace b).map fun run =>
    match run with
    | [c] => if c == '\n' then [' '] else run
    | c :: _ => if isSpace c then [' '] else run
    | [] => []).flatten

/-- Whether the findings of a file get a heading: not if every line names the file. -/
def wantsHeading (s : Settings) : Outcome Bool :=
  let field := "\x7bfilename\x7d"
  match s.linterOutputFormat with
  | .text form => .ok (!contains field.toList form.toList && !s.stdin)
  | .list xs | .tuple xs | .set xs => .ok (!xs.contains (.text field) && !s.stdin)
  | .dict es => .ok (!(es.map (·.1)).contains (.text field) && !s.stdin)
  | _ => .error .wrongType

def findingLine (s : Settings) (name : String) (f : Lint.Finding) : Outcome String := do
  match f.code with
  | .text code =>
    let values : Values := [
      ("filename", .text name),
      ("line", .text (paint .blue f.place)),
      ("code", .text (paint (if code.startsWith "E" then .red else .yellow) code)),
      ("message", f.message),
      ("match", .text (paint .blue (String.ofList (flattenExcerpt f.excerpt.toList))))]
    match s.linterOutputFormat with
    | .text form => return String.ofList (← fill values form.toList)
    | _ => .error .missingOperation
  | _ => .error .wrongType

/-- Tells what the rules find in the first file. -/
def tellFindings (s : Settings) (findings : Findings) : Run Nat := do
  match findings with
  | [] => throw .outOfRange
  | (path, found) :: _ =>
    let found ← Stateful.lift (sortFindings found)
    if found.isEmpty then return 0
    let name := relativeName s.projectRoot path
    if ← Stateful.lift (wantsHeading s) then Run.say (heading s path)
    for f in found do
      Run.say (← Stateful.lift (findingLine s name f))
    return found.length

/-- How often each code occurs, in the order of the codes. -/
def tally (codes : List String) : List (String × Nat) :=
  (sortedNames codes).map fun c => (c, codes.count c)

/-- The codes of the first files of the given findings. -/
def codesOf (all : List (Option Findings)) : Outcome (List String) := do
  let found := all.flatMap fun
    | some ((_, found) :: _) => found
    | _ => []
  found.mapM fun f =>
    match f.code with
    | .text code => .ok code
    | v => .ok v.render

/-- Blanks that bring a text to a width. -/
def padding (n : Nat) (s : String) : String :=
  String.ofList (List.replicate (n - s.length) ' ')

/-- Whether a value may be a key of a table. -/
def isKey : Value → Bool
  | .list _ | .set _ | .dict _ => false
  | _ => true

/-- Tells how often each code occurs. -/
def tellStatistics (s : Settings) (all : List (Option Findings)) : Run Nat := do
  if all.isEmpty then return 0
  let codes ← Stateful.lift (codesOf all)
  let messages := s.rules.map fun r => (r.name.render, r.message)
  if s.rules.any fun r => !isKey r.name then throw .wrongType
  Run.say ""
  Run.say ("Statistics\n" ++ ruler width)
  let counts := tally codes
  if !messages.isEmpty && !counts.isEmpty then
    if s.rules.any fun r => !r.name.isText then throw .wrongType
    let longestCode := (messages.map fun m => m.1.length).foldl max 0
    let longestCount := (counts.map fun c => (toString c.2).length).foldl max 0
    for (code, n) in counts do
      match messages.reverse.lookup code with
      | none => throw (.missingKey (.text code))
      | some message =>
        Run.say (code ++ " " ++ padding longestCode code ++ toString n ++ " " ++
          padding longestCount (toString n) ++ message.render)
  return codes.length

/-- Tells about one file, and answers with the numbers of changed files and of findings. -/
def tellFile (s : Settings) (r : FileReport) : Run (Nat × Nat) := do
  let changed ← match r.changes? with
    | some c => if s.stdin then pure 0 else tellChanges s c
    | none => pure 0
  let found ← match r.findings? with
    | some f => if f.isEmpty then pure 0 else tellFindings s f
    | none => pure 0
  return (changed, found)

/-- Reports in the order of their names. -/
def sortReports (reports : List FileReport) : Outcome (List FileReport) := do
  let named ← reports.mapM fun r => return (← r.name, r)
  return (named.mergeSort fun a b => !decide (b.1 < a.1)).map (·.2)

/-- Tells all about the files of a run, and answers with the number of changed files and findings. -/
def tell (s : Settings) (reports : List FileReport) (fileCount : Int) : Run Nat := do
  let spaced := !s.stdin && s.quiet.isBool false
  if spaced then Run.say ""
  let counts ← (← Stateful.lift (sortReports reports)).mapM (tellFile s)
  let changed : Nat := (counts.map (·.1)).foldl (· + ·) 0
  let found : Nat := (counts.map (·.2)).foldl (· + ·) 0
  if s.statistics.truthy && s.lint.truthy then
    let _ ← tellStatistics s (reports.map FileReport.findings?)
  let updated :=
    if s.check.isBool true then quantity changed ++ " would be" else quantityTense changed
  if spaced then Run.say ""
  if s.quiet.isBool false && !s.stdin && (s.reformat.truthy || s.check.truthy) then
    Run.say (updated ++ " updated.")
  if s.lint.truthy && s.quiet.isBool false then
    Run.say ("Linted " ++ quantity fileCount ++ ", found " ++ toString found ++
      (if found = 1 then " error." else " errors."))
  if spaced then Run.say ""
  return found + changed

end TemplateTidy.Report
