import TemplateTidy.Command.Switch
import TemplateTidy.Discovery
import TemplateTidy.Job

/-! # Running a command line

`run` does all that a command line asks for, on a file tree and a text for the standard input, and
answers with what is printed, the tree afterwards and the exit status. -/

namespace TemplateTidy.Command

open Text Files

/-- What a run changes: the files, and what it has said. -/
structure Scene where
  tree : Tree
  journal : Journal := {}

/-- A part of a run. -/
abbrev Act := Stateful Scene

/-- Takes over a computation that keeps a journal. -/
def Act.ofRun {α : Type} (r : Run α) : Act α := do
  let scene ← get
  let (result, journal) := r.run.run scene.journal
  set { scene with journal }
  Stateful.lift result

/-- Where the text of the standard input is kept while it is worked on. -/
def inputPath : Path :=
  { absolute := true, parts := ["tmp", "stdin"] }

def listedFiles (s : Settings) : Outcome (List Path) := do
  (← s.files.elements).mapM fun v =>
    match v with
    | .text name => .ok (Path.ofString name)
    | _ => .error .wrongType

/-- The files of a request, with the settings to work on them.  A dash stands for the files that the
settings list, or else for the standard input, which no ignore file can cover. -/
def collect (s : Settings) (sources : List String) (input : List Char) :
    Act (Settings × List Path) := do
  let discover (s : Settings) (paths : List Path) : Act (Settings × List Path) := do
    return (s, ← Act.ofRun (Discovery.discover s (← get).tree paths))
  if !sources.contains "-" then discover s (sources.map Path.ofString)
  else if s.files.truthy then discover s (← Stateful.lift (listedFiles s))
  else
    modify fun scene =>
      { scene with tree := scene.tree.addFile inputPath (String.ofList (unifyLineEnds input)).toUTF8 }
    discover { s with stdin := true, useGitignore := .bool false } [inputPath]

/-- Does what a request asks for, and answers with the exit status. -/
def perform (tools : Layout.Tools) (checks : List (String × Lint.Check)) (request : Request)
    (input : List Char) : Act Nat := do
  let s ← Act.ofRun (Settings.load (← get).tree (request.sources.headD "") request.overrides)
  let (s, files) ← collect s request.sources input
  if files.isEmpty then return 0
  if !s.stdin && s.quiet.isBool false then Act.ofRun (Run.say "")
  let scene ← get
  let (results, tree) := processAll tools checks s files scene.tree
  set { scene with tree }
  let reports ← Stateful.lift results
  if s.stdin && (s.reformat.truthy || s.check.truthy) then
    let text ← Stateful.lift (tree.readText inputPath)
    Act.ofRun (Run.hand (String.ofList (stripRight text)))
  let n ← Act.ofRun (Report.tell s reports files.length)
  return if n != 0 && s.warn.isBool false then 1 else 0

inductive Ending where
  | exit (status : Nat)
  /-- The arguments are wrong; the text says how. -/
  | refused (report : String)
  | failed (failure : Failure)

/-- A run that has ended. -/
structure Finished where
  ending : Ending
  journal : Journal
  tree : Tree

/-- Runs a command line under a program name, with some tools. -/
def runWith (tools : Layout.Tools) (checks : List (String × Lint.Check)) (program : String)
    (args : List String) (input : List Char) (t : Tree) : Finished :=
  match Request.ofArguments t args with
  | .error fault => { ending := .refused (fault.report program), journal := {}, tree := t }
  | .ok request =>
    if request.help then
      { ending := .exit 0, journal := { lines := [usage program] }, tree := t }
    else
      let (result, scene) := (perform tools checks request input).run.run { tree := t }
      { ending := match result with
          | .ok status => .exit status
          | .error e => .failed e,
        journal := scene.journal, tree := scene.tree }

/-- Runs a command line under a program name. -/
def run := runWith .builtin

end TemplateTidy.Command
