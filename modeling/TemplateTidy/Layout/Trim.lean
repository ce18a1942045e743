import TemplateTidy.Region
import TemplateTidy.Settings.Basic

/-! # Trimming lines

`trimLines` drops blanks at the ends of lines and runs of blank lines, and then adds the blank lines
that the settings ask for: after or before certain template tags, and after front matter.  Each step
judges matches by the ignored regions of the text that was current when the step was set up. -/

namespace TemplateTidy.Layout

open Text

/-- The options of patterns over lines. -/
def lines : Flags :=
  { multiline := true }

/-- A line with the blanks around it, and the blank lines after it. -/
def lineAndBlanks : Pattern := .ofSource lines r"^[ \t]*(.*?)[\n \t]*$"

/-- A line that is not empty, with the blanks around it. -/
def lineOnly : Pattern := .ofSource lines r"^[ \t]*([^\n]+?)[ \t]*$"

/-- A line that begins with a tag, with the blanks around it. -/
def tagLine (across : Bool) : Pattern :=
  .ofSource lines (r"^[ \t]*((?:<|\x7b%).*?)[" ++ (if across then r"\n" else "") ++ r" \t]*$")

/-- A line with the blanks after it, and the blank lines after it. -/
def lineEnd : Pattern := .ofSource lines r"^(.*?)[\n \t]*$"

/-- A line that is not empty, with the blanks after it. -/
def lineEndOnly : Pattern := .ofSource lines r"^([^\n]+?)[ \t]*$"

/-- The steps that trim, by whether blank lines and leading blanks are kept. -/
def trimSteps (keepBlankLines keepLeading : Bool) : List Pattern :=
  match keepBlankLines, keepLeading with
  | false, false => [lineAndBlanks]
  | true, false => [lineOnly]
  | false, true => [tagLine true, lineEnd]
  | true, true => [tagLine false, lineEndOnly]

/-- A trimmed line, judged by the document `doc` and its ignored spans. -/
def trimmed (doc : Array Char) (ignored : List Span) (text : Array Char) (m : Match) : List Char :=
  let piece := m.text text
  if ignored.any (Region.within m.span) && !Region.closesSafelyOn piece.toArray then piece
  else if Region.inProtectedTrans (doc.extract 0 m.stop) piece.toArray then stripRight piece
  else m.capture text 1

/-- Drops blanks at the ends of lines. -/
def trimEnds (s : Settings) (text : List Char) : List Char :=
  let doc := text.toArray
  let ignored := Region.ignoredSpans doc
  (trimSteps s.preserveBlankLines.truthy s.preserveLeadingSpace.truthy).foldl
    (fun now step =>
      let chars := now.toArray
      step.replaceAll (trimmed doc ignored chars) chars) text

/-- The tag names that a setting lists, if it counts as yes. -/
def listedTags (v : Value) : Outcome (List (List Char)) := do
  match ← textOf v with
  | some names => return (names.toList.splitOn ',').map strip
  | none => return []

/-- A run of template tags of one name, after a written condition. -/
def tagRun (condition : String) (name : List Char) (edge : String) : Outcome Pattern :=
  compile { ignoreCase := true, multiline := true, dotAll := true }
    ((condition ++ r"((?:\x7b%\s*?").toList ++ name ++ (edge ++ r"[^\x7d]+?%\x7d\n?)+)").toList)

/-- Adds blank lines after runs of the listed tags. -/
def blankLinesAfter (s : Settings) (text : List Char) : Outcome (List Char) := do
  let doc := text.toArray
  let ignored := Region.ignoredSpans doc
  (← listedTags s.blankLineAfterTag).foldlM (fun now name => do
    let run ← tagRun "" name r"\b"
    let chars := now.toArray
    return run.replaceAll (fun m =>
      let piece := m.text chars
      if ignored.any (Region.within m.span) || doc[m.stop]? == some '\n' then piece
      else piece ++ ['\n']) chars) text

/-- Adds blank lines before runs of the listed tags. -/
def blankLinesBefore (s : Settings) (text : List Char) : Outcome (List Char) := do
  let doc := text.toArray
  let ignored := Region.ignoredSpans doc
  (← listedTags s.blankLineBeforeTag).foldlM (fun now name => do
    let run ← tagRun r"(?<!^\n)" name r"\b"
    let chars := now.toArray
    return run.replaceAll (fun m =>
      let piece := m.text chars
      if ignored.any (Region.within m.span) || m.start == 0 then piece else '\n' :: piece) chars)
    text

def frontMatter : Pattern :=
  .ofSource { multiline := true, dotAll := true } r"(^---.+?---)$"

/-- Adds a blank line after front matter that has none. -/
def blankLineAfterFrontMatter (text : List Char) : List Char :=
  let chars := text.toArray
  frontMatter.replaceAll (fun m =>
    let piece := m.text chars
    if m.start == 0 && !(chars[m.stop]? == some '\n' && chars[m.stop + 1]? == some '\n') then
      piece ++ ['\n']
    else piece) chars

def trimLines (s : Settings) (text : List Char) : Outcome (List Char) := do
  let text := trimEnds s text
  let text ← blankLinesAfter s text
  let text ← blankLinesBefore s text
  return if s.noLineAfterYaml.isBool false then blankLineAfterFrontMatter text else text

end TemplateTidy.Layout
