import TemplateTidy.Layout.Tools
import TemplateTidy.Layout.Vocabulary
import TemplateTidy.Region

/-! # Embedded code

The contents of style and script elements are laid out as code.  Code is laid out twice, with one step
of indentation more the second time: the lines in which the results differ are those that may be
indented, and they are indented as far as the element. -/

namespace TemplateTidy.Layout

open Text

/-- Elements of a name with their contents: blanks before, the opening tag, the contents. -/
def embeddedSource (name : String) : String :=
  "([ ]*?)(<(?:" ++ name ++ r")\b(?:" ++ tagPiece ++ ")*>)(.*?)(?=</" ++ name ++ ">)"

def styleElement : Pattern := .ofSource { ignoreCase := true, dotAll := true } (embeddedSource "style")

def scriptElement : Pattern := .ofSource { ignoreCase := true, dotAll := true } (embeddedSource "script")

/-- A table of options with a number of steps of indentation. -/
def withLevel (table : Value) (level : Int) : Outcome Value :=
  match table with
  | .dict entries => .ok (.dict (Value.put entries (.text "indent_level") (.int level)))
  | _ => .error .wrongType

/-- The lines of code that is laid out with a table of options. -/
def layWith (layout : Value → List Char → Outcome (List Char)) (table : Value) (code : List Char) :
    Outcome (List (List Char)) := do
  return splitLines (← layout table code)

/-- Indents the lines that a further step of indentation changes. -/
def indentChanged (indent : List Char) (lines deeper : List (List Char)) : List Char :=
  ((lines.zip deeper).map fun (line, other) =>
    '\n' :: (if line == other then line else indent ++ line)).flatten

/-- The code of a style element.  The second time, it is laid out with the options of scripts. -/
def Tools.styleLines (tools : Tools) (code : List Char) :
    Editing (List (List Char) × List (List Char)) := do
  let own ← Stateful.lift (withLevel (← get).cssConfig 1)
  modify fun s => { s with cssConfig := own }
  let lines ← Stateful.lift (layWith tools.style own code)
  let other ← Stateful.lift (withLevel (← get).jsConfig 2)
  modify fun s => { s with jsConfig := other }
  return (lines, ← Stateful.lift (layWith tools.style other code))

def Tools.scriptLines (tools : Tools) (code : List Char) :
    Editing (List (List Char) × List (List Char)) := do
  let own ← Stateful.lift (withLevel (← get).jsConfig 1)
  modify fun s => { s with jsConfig := own }
  let lines ← Stateful.lift (layWith tools.script own code)
  let other ← Stateful.lift (withLevel own 2)
  modify fun s => { s with jsConfig := other }
  return (lines, ← Stateful.lift (layWith tools.script other code))

/-- An element with its contents laid out.  Elements without contents, and those in parts that are not
formatted, stay as they are. -/
def layElement (lay : List Char → Editing (List (List Char) × List (List Char)))
    (text : Array Char) (m : Match) : Editing (List Char) := do
  let code := m.capture text 3
  if Region.childOfUnformatted text m.span || (strip code).isEmpty then return m.text text
  let indent := List.replicate (m.capture text 1).length ' '
  let (lines, deeper) ← lay code
  return m.capture text 1 ++ m.capture text 2 ++ indentChanged indent lines deeper ++ '\n' :: indent

def layElements (p : Pattern) (lay : List Char → Editing (List (List Char) × List (List Char)))
    (text : List Char) : Editing (List Char) :=
  let chars := text.toArray
  p.replaceAllM (layElement lay chars) chars

def Tools.layStyles (tools : Tools) (text : List Char) : Editing (List Char) :=
  layElements styleElement tools.styleLines text

def Tools.layScripts (tools : Tools) (text : List Char) : Editing (List Char) :=
  layElements scriptElement tools.scriptLines text

def layStyles : List Char → Editing (List Char) := Tools.builtin.layStyles

def layScripts : List Char → Editing (List Char) := Tools.builtin.layScripts

end TemplateTidy.Layout
