import TemplateTidy.Layout.Vocabulary
import TemplateTidy.Region

/-! # Breaking lines

`breakLines` puts a line feed before and after each tag that stands on a line of its own: first for
elements, then for template tags.  It leaves ignored regions alone, elements inside template tags, and
template tags inside the tag of an element. -/

namespace TemplateTidy.Layout

open Text

/-- The side of a tag on which a line is broken. -/
inductive Side where
  | before
  | after
deriving DecidableEq, Repr

/-- A piece with a line feed on one side; nothing is put before the beginning of the text. -/
def Side.isolate (side : Side) (start : Nat) (piece : List Char) : List Char :=
  match side with
  | .before => if start = 0 then piece else '\n' :: piece
  | .after => piece ++ ['\n']

/-- The tag of an element that stands on a line of its own. -/
def elementBreak (s : Settings) : String :=
  "(</?(?:" ++ breakElements s ++ r")\b(" ++ tagPiece ++ ")*>)"

/-- Breaks lines on one side of the tags of elements. -/
def breakElementsOn (s : Settings) (side : Side) (text : List Char) : Outcome (List Char) := do
  let source := match side with
    | .before => notAtLineStart ++ r"\K" ++ elementBreak s
    | .after => elementBreak s ++ r"(?!\s*?\n)(?=[^\n])"
  let tag ← compileSource loose source
  let chars := text.toArray
  let ignored := Region.ignoredSpans chars
  return tag.replaceAll (fun m =>
    if ignored.any (Region.within m.span) || Region.inTemplateTag chars m.span then m.capture chars 1
    else side.isolate m.start (m.capture chars 1)) chars

/-- The tag of an element up to a piece that ends a line of the text. -/
def unfinishedTag (s : Settings) (piece : List Char) : Outcome Pattern :=
  compile { multiline := true, verbose := true }
    ((r"\<(?:" ++ elements s ++ r#")\b(?:\"[^\">]*\"|'[^'>]*'|\x7b\x7b[^\x7d]*\x7d\x7d|"# ++
      r"\x7b%[^%]*%\x7d|\x7b\#[^\#]*\#\x7d|[^>\x7b\x7d])*?").toList ++ Pattern.quote piece ++ ['$'])

/-- A template tag that stands on a line of its own. -/
def blockBreak (s : Settings) : String :=
  r"((?:\x7b%|\x7b\x7b\#)[ ]*?(?:" ++ breakBlocks s ++ r")[^\x7d]+?[%\x7d]\x7d)"

/-- Breaks lines on one side of template tags. -/
def breakBlocksOn (s : Settings) (side : Side) (text : List Char) : Outcome (List Char) := do
  let source := match side with
    | .before => notAtLineStart ++ r"\K" ++ blockBreak s
    | .after => blockBreak s ++ r"(?=[^\n])"
  let tag ← compileSource looseLines source
  let chars := text.toArray
  let kept := Region.ignoredSpans chars
  tag.replaceAllM (fun m => do
    let piece := m.capture chars 1
    if kept.any (Region.within m.span) then return piece
    else if (← unfinishedTag s piece).occurs (chars.extract 0 m.stop) then return piece
    else return side.isolate m.start piece) chars

/-- Puts tags on lines of their own. -/
def breakLines (s : Settings) (text : List Char) : Outcome (List Char) := do
  let text ← breakElementsOn s .before text
  let text ← breakElementsOn s .after text
  let text ← breakBlocksOn s .before text
  breakBlocksOn s .after text

end TemplateTidy.Layout
