import TemplateTidy.Layout.Vocabulary
import TemplateTidy.Region

/-! # Flattening tags

`flattenTags` writes each tag on one line: its name in lower case if it is a known element, its
attributes with single spaces where lines ended, and its closing bracket after a space if it closes
itself. -/

namespace TemplateTidy.Layout

open Text

/-- A tag: the opening bracket, the name, the attributes and the closing bracket. -/
def tagPattern : Pattern :=
  .ofSource looseLines
    (r"(</?(?:!(?!--))?)([^\s>!\[]+\b)" ++
      r#"((?:\s*?(?:\"[^\"]*\"|'[^']*'|\x7b\x7b(?:(?!\x7d\x7d).)*\x7d\x7d|"# ++
      r#"\x7b%(?:(?!%\x7d).)*%\x7d|[^'\">\x7b\x7d/\s]|/(?!>)))+)?\s*?(/?>)"#)

/-- The name of a tag as it is written out: known elements in lower case, unless case is kept. -/
def tagName (keepCase : Bool) (name : List Char) : List Char :=
  let low := lower name
  if keepCase then name
  else if Markup.tagNames.contains (String.ofList low) then low
  else if low = "doctype".toList then "DOCTYPE".toList
  else name

/-- Attributes on one line, with a space before them. -/
def flatAttributes (written : List Char) : List Char :=
  if written.isEmpty then []
  else ' ' :: joinWith [' '] ((splitLines (strip written)).map strip)

def closingBracket (closeVoid : Bool) (name bracket : List Char) : List Char :=
  if closeVoid && Markup.voidElements.contains (String.ofList (lower name)) then " />".toList
  else if bracket.contains '/' then ' ' :: bracket
  else bracket

def flatTag (s : Settings) (text : Array Char) (m : Match) : List Char :=
  let name := tagName (!s.ignoreCase.isBool false) (m.capture text 2)
  m.capture text 1 ++ name ++ flatAttributes (m.capture text 3) ++
    closingBracket s.closeVoidTags.truthy name (m.capture text 4)

/-- Writes each tag outside the unformatted regions on one line. -/
def flattenTags (s : Settings) (text : List Char) : List Char :=
  let chars := text.toArray
  let kept := Region.spansOf Region.unformatted chars
  tagPattern.replaceAll
    (fun m => if kept.any (Region.childOf m.span) then m.text chars else flatTag s chars m) chars

end TemplateTidy.Layout
