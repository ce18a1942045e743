import TemplateTidy.Layout.Document
import TemplateTidy.Report.Console
import TemplateTidy.Text.Difference

/-! # Jobs

What is done with one file: it is formatted, or checked for its format, and linted.  A job reads and
writes the file tree on its desk; what it has written stays even if it fails later.  An evaluation in a
document may change the settings on the desk, and what is done after it goes by the changed ones. -/

namespace TemplateTidy

open Text Files

/-- What a job works with. -/
structure Desk where
  tree : Tree
  settings : Settings

/-- Work on a file. -/
abbrev Job := Stateful Desk

namespace Job

/-- Formats a text under the settings on the desk. -/
def format (tools : Layout.Tools) (text : List Char) : Job (List Char) := do
  let desk ← get
  let (result, settings) := (tools.format text).run.run desk.settings
  set { desk with settings }
  Stateful.lift result

/-- Formats a file and answers with the lines that change.  The file is written unless it is only
checked; the text of the standard input is always written. -/
def reformatWith (tools : Layout.Tools) (p : Path) : Job Report.Changes := do
  let text ← Stateful.lift ((← get).tree.readExactly p)
  let result ← format tools text
  let desk ← get
  if !desk.settings.check.isBool true || desk.settings.stdin then
    set { desk with tree := desk.tree.put p (.file (String.ofList result).toUTF8) }
  let lines := Difference.unified (splitLines text) (splitLines result)
  return [(p.render, lines.map String.ofList)]

def reformat : Path → Job Report.Changes := reformatWith .builtin

def lint (checks : List (String × Lint.Check)) (p : Path) : Job Report.Findings := do
  let desk ← get
  let text ← Stateful.lift (desk.tree.readText p)
  let s := desk.settings
  let found ← Stateful.lift (Lint.lint checks s.rules s.perFileIgnores text p.render)
  return [(p.render, found)]

/-- Does with a file what the settings ask for. -/
def process (tools : Layout.Tools) (checks : List (String × Lint.Check)) (p : Path) :
    Job Report.FileReport := do
  let s := (← get).settings
  let changes ←
    if s.reformat.truthy || s.check.truthy then
      pure [Report.Part.changes (← reformatWith tools p)]
    else pure []
  let findings ←
    if (← get).settings.lint.truthy then pure [Report.Part.findings (← lint checks p)] else pure []
  return changes ++ findings

end Job

/-- Works through files, each under the same settings, as a pool of one worker does.  All files are
done even if one fails; the answer is the first failure, if any. -/
def processAll (tools : Layout.Tools) (checks : List (String × Lint.Check)) (s : Settings)
    (files : List Path) (t : Tree) : Outcome (List Report.FileReport) × Tree :=
  let (results, t) := files.foldl (fun (results, t) p =>
    let (result, desk) := (Job.process tools checks p).run.run { tree := t, settings := s }
    (results ++ [result], desk.tree)) ([], t)
  (results.mapM id, t)

end TemplateTidy
