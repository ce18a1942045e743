import TemplateTidy.Layout.Trim
import TemplateTidy.Layout.Vocabulary

/-! # Joining short elements

`joinShort` puts an element or a template block that holds only a short text back on one line. -/

namespace TemplateTidy.Layout

open Text

/-- An element that holds text only: its opening tag, its text and its closing tag are groups 1, 3
and 4. -/
def shortElement : Pattern :=
  .ofSource { looseLines with dotAll := true }
    ("(<(" ++ shortElements ++ r")\b(?:" ++ tagPiece ++ r")*>)\s*([^<\n]*?)\s*?(</(\2)>)")

/-- A template block that holds text only, with the same groups. -/
def shortBlock : Pattern :=
  .ofSource looseLines
    (r"((?:\s|^)\x7b%-?[ ]*?(" ++ shortBlocks ++ r")(?:(?!\n|%\x7d).)*?%\x7d)\s*([^%\n]*?)\s*?" ++
      r"(\x7b%-?[ ]+?end(\2)[ ]*?%\x7d)")

/-- Whether a text holds none of the tags that a setting lists. -/
def freeOf (setting : Value) (text : List Char) : Outcome Bool := do
  go (← listedTags setting)
where
  go : List (List Char) → Outcome Bool
    | [] => return true
    | name :: rest => do
      if (← tagRun "" name "").occurs text.toArray then return false else go rest

/-- The length of the line that a joined element makes. -/
def joinedLength (s : Settings) (head body tail : List Char) : Nat :=
  let first :=
    if s.lineBreakAfterMultilineTag.truthy then head else (splitLines head).getLast?.getD []
  first.length + body.length + tail.length

/-- A short element on one line, unless it lies in an ignored span. -/
def joined (s : Settings) (ignored : List Span) (text : Array Char) (m : Match) :
    Outcome (List Char) := do
  let head := m.capture text 1
  let body := m.capture text 3
  let tail := m.capture text 4
  if !ignored.any (Region.within m.span) &&
      (joinedLength s head body tail : Int) < s.maxLineLength then
    if ← freeOf s.blankLineAfterTag body then
      if ← freeOf s.blankLineBeforeTag body then return head ++ body ++ tail
  return m.text text

/-- Puts short elements and template blocks back on one line. -/
def joinShort (s : Settings) (text : List Char) : Outcome (List Char) := do
  if s.preserveLeadingSpace.truthy then return text
  let ignored := Region.ignoredSpans text.toArray
  [shortElement, shortBlock].foldlM (fun now p =>
    let chars := now.toArray
    p.replaceAllM (joined s ignored chars) chars) text

end TemplateTidy.Layout
