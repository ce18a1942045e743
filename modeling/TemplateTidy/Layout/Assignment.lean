import TemplateTidy.Layout.Tools
import TemplateTidy.Layout.Vocabulary
import TemplateTidy.Region

/-! # Data in template tags

`Tools.tidyAssignments` and `Tools.tidyCalls` lay out the values of assignment tags and the arguments
of calls.  A value that reads as relaxed JSON is written out again, over several lines if it is long;
any other expression is replaced by its value, if it has one. -/

namespace TemplateTidy.Layout

open Text

/-- An assignment tag: leading spaces, opening bracket, name, contents and closing bracket. -/
def assignment : Pattern :=
  .ofSource { looseLines with dotAll := true }
    r"([ ]*)(\x7b%-?)[ ]*(set)[ ]+?((?:(?!%\x7d).)*?)(-?%\x7d)"

/-- A call: leading spaces, opening bracket, name, arguments with their parentheses, and the rest. -/
def call : Pattern :=
  .ofSource { looseLines with dotAll := true }
    r"([ ]*)(\x7b\x7b)[ ]*?((?:(?!\x7d\x7d).)*?\w)(\([^\)]*?\)[ ]*)((?:(?!\x7d\x7d).)*?\x7d\x7d)"

namespace Tools

variable (tools : Tools)

/-- The value of an expression, without parentheses that were not there; an expression without a value
stays as it is written. -/
def tidyExpression (scope : Scope) : Editing (List Char) := do
  let (value?, s) := tools.evaluate scope (← get)
  set s
  return match value? with
    | some shown =>
      if scope.contents.head? != some '(' && shown.head? == some '(' then shown.tail.dropLast
      else shown
    | none => strip scope.contents

/-- Relaxed JSON on one line, if that is shorter than the rest of the line, or else over several;
anything else as an expression. -/
def tidyValue (scope : Scope) : Editing (List Char) := do
  let s ← get
  match tools.json? none scope.contents with
  | none => tools.tidyExpression scope
  | some line =>
    if (scope.tagSize + line.length : Nat) < s.maxLineLength then return line
    else
      match tools.json? (some s.indentSize) scope.contents with
      | some shown => return shown
      | none => tools.tidyExpression { scope with contents := line }

/-- Data laid out, its further lines after the margin. -/
def tidyData (scope : Scope) : Editing (List Char) := do
  return joinWith ('\n' :: scope.margin) (splitLines (← tools.tidyValue scope))

def tidyAssignment (text : Array Char) (m : Match) : Editing (List Char) := do
  let margin := m.capture text 1
  let opening := m.capture text 2
  let name := m.capture text 3
  let closing := m.capture text 5
  let written := strip (m.capture text 4)
  let contents ←
    match written.dropWhile (· != '=') with
    | [] => pure written
    | _ :: contents => do
      let tagSize := opening.length + name.length + closing.length + 3
      let shown ← tools.tidyData { contents, tagSize, margin, place := m.start }
      pure (strip (written.takeWhile (· != '=')) ++ " = ".toList ++ shown)
  return margin ++ opening ++ ' ' :: name ++ ' ' :: contents ++ ' ' :: closing

def tidyCall (text : Array Char) (m : Match) : Editing (List Char) := do
  let margin := m.capture text 1
  let opening := m.capture text 2
  let name := strip (m.capture text 3)
  let closing := m.capture text 5
  let contents := (strip (m.capture text 4)).tail.dropLast
  let tagSize := opening.length + name.length + closing.length + 4
  let shown ← tools.tidyData { contents, tagSize, margin, place := m.start }
  return margin ++ opening ++ ' ' :: name ++ '(' :: shown ++ ')' :: ' ' :: closing

end Tools

/-- Applies a layout to each match outside the ignored regions. -/
def tidyMatches (p : Pattern) (f : Array Char → Match → Editing (List Char)) (text : List Char) :
    Editing (List Char) :=
  let chars := text.toArray
  p.replaceAllM (fun m =>
    if Region.inIgnored chars m.span then return m.text chars else f chars m) chars

def Tools.tidyAssignments (tools : Tools) (text : List Char) : Editing (List Char) :=
  tidyMatches assignment tools.tidyAssignment text

def Tools.tidyCalls (tools : Tools) (text : List Char) : Editing (List Char) :=
  tidyMatches call tools.tidyCall text

end TemplateTidy.Layout
