import TemplateTidy.Layout.Assignment
import TemplateTidy.Layout.Break
import TemplateTidy.Layout.Embedded
import TemplateTidy.Layout.Flatten
import TemplateTidy.Layout.Indent
import TemplateTidy.Layout.Join
import TemplateTidy.Layout.Spacing

/-! # Formatting a document

`format` runs the stages of the formatter one after the other and restores the line ends that the
document came with. -/

namespace TemplateTidy.Layout

open Text

/-- A document with line feeds as line ends. -/
def naturalLines (text : List Char) : List Char :=
  joinWith ['\n'] (splitLines text)

/-- Spaces template tags, indents lines and lays out data; the document ends with one line feed. -/
def Tools.indent (tools : Tools) (text : List Char) : Editing (List Char) := do
  let s ← get
  let text ← Stateful.lift (indentLines s (spaceTags s text))
  let text ← tools.tidyCalls (← tools.tidyAssignments text)
  let text := if (← get).preserveBlankLines.truthy then text else stripLeft text
  return stripRight text ++ ['\n']

/-- What `Tools.indent` answers. -/
def indentDocument (s : Settings) (text : List Char) : Outcome (List Char) :=
  ((Tools.builtin.indent text).run.run s).1

/-- Whether the first line of a document ends with a carriage return and a line feed. -/
def endsWithReturn (text : List Char) : Bool :=
  match text.span (· != '\n') with
  | (line, _ :: _) => line.getLast? == some '\r'
  | (_, []) => false

/-- Writes each line end as a carriage return and a line feed. -/
def withReturns (text : List Char) : List Char :=
  (text.filter (· != '\r')).flatMap fun c => if c = '\n' then ['\r', '\n'] else [c]

inductive Stage where
  /-- Each tag on one line. -/
  | flatten
  /-- Line ends before and after tags. -/
  | separate
  /-- No blanks at the ends of lines. -/
  | trim
  | indent
  /-- Short elements on one line. -/
  | join
deriving DecidableEq, Repr

/-- The stages that every document goes through, in order. -/
def Stage.all : List Stage :=
  [.flatten, .separate, .trim, .indent, .join]

def Stage.edit (tools : Tools) (stage : Stage) (text : List Char) : Editing (List Char) := do
  match stage with
  | .flatten => return flattenTags (← get) text
  | .separate => Stateful.lift (breakLines (← get) text)
  | .trim => Stateful.lift (trimLines (← get) text)
  | .indent => tools.indent text
  | .join => Stateful.lift (joinShort (← get) text)

def Stage.run (stage : Stage) (s : Settings) (text : List Char) : Outcome (List Char) :=
  ((stage.edit .builtin text).run.run s).1

namespace Tools

variable (tools : Tools)

/-- Lays out the style sheets of a document if the settings ask for it. -/
def layAskedStyles (text : List Char) : Editing (List Char) := do
  if (← get).formatCss.truthy then tools.layStyles text else return text

/-- Lays out the scripts of a document if the settings ask for it. -/
def layAskedScripts (text : List Char) : Editing (List Char) := do
  if (← get).formatJs.truthy then tools.layScripts text else return text

/-- All stages, on a document with line feeds as line ends. -/
def formatLines (lines : List Char) : Editing (List Char) := do
  let result ← Stage.all.foldlM (fun now stage => stage.edit tools now) lines
  tools.layAskedScripts (← tools.layAskedStyles result)

/-- Formats a document with some tools.  An empty one stays empty. -/
def format (text : List Char) : Editing (List Char) := do
  if text.isEmpty then return text
  let result ← tools.formatLines (naturalLines text)
  return if endsWithReturn text then withReturns result else result

end Tools

def format : List Char → Editing (List Char) := Tools.builtin.format

end TemplateTidy.Layout
