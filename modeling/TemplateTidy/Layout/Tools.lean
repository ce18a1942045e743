import TemplateTidy.Code.Script.Layout
import TemplateTidy.Code.Style
import TemplateTidy.Data.Expression
import TemplateTidy.Data.Json5
import TemplateTidy.Settings.Basic

/-! # The tools of the formatter

The formatter hands parts of a document to readers and layouts of other languages.  `Tools` is what it
asks of them, and all that it does besides is defined, and proved about, for any tools.  An evaluation
sees the settings and may change them.  `Tools.builtin` are the tools of this library. -/

namespace TemplateTidy.Layout

open Text

/-- A computation on a document that may change the settings, as evaluations and layouts of embedded
code do. -/
abbrev Editing := Stateful Settings

/-- What an evaluation sees of the tag that it is for. -/
structure Scope where
  contents : List Char
  /-- The length of the tag without its contents. -/
  tagSize : Nat
  /-- What further lines begin with. -/
  margin : List Char
  /-- Where the tag begins.  It tells apart the evaluations of a document, which may differ in their
  values also where they are asked for the same. -/
  place : Nat

/-- The readers and layouts of other languages. -/
structure Tools where
  /-- Relaxed JSON written out again, on one line or with an indent; none if it cannot be. -/
  json? : Option Value → List Char → Option (List Char)
  /-- The value of an expression written out, if it has one, and the settings afterwards. -/
  evaluate : Scope → Settings → Option (List Char) × Settings
  /-- A style sheet laid out with a table of options. -/
  style : Value → List Char → Outcome (List Char)
  /-- A script laid out with a table of options. -/
  script : Value → List Char → Outcome (List Char)

/-- What a level of nested data is indented by. -/
def dataUnit : Value → Option (List Char)
  | .int i => some (List.replicate i.toNat ' ')
  | .text t => some t.toList
  | _ => none

def Tools.builtin : Tools where
  json? indent contents := do
    let v ← (Data.Json5.read? contents).filter Value.isWritable
    match indent with
    | none => return (Data.Json5.render none v).toList
    | some size => return (Data.Json5.render (some (← dataUnit size)) v).toList
  evaluate scope s :=
    let (value?, s) := (Data.Expression.eval Settings.assign? scope.contents).run.run s
    (value?.map (·.render.toList), s)
  style table code := do Code.Style.layout (← Code.Options.ofTable table) code
  script table code := do Code.Script.layout (← Code.Options.ofTable table) code

end TemplateTidy.Layout
