import TemplateTidy.Region
import TemplateTidy.Settings.Basic

/-! # Spacing inside template tags

`spaceTags` puts one space after the opening bracket of a template tag and one before the closing
bracket, as far as the profile's template language allows it. -/

namespace TemplateTidy.Layout

/-- A tag with percent signs: its opening bracket, its contents and its closing bracket. -/
def percentTag : Pattern :=
  .ofSource {} r"(\x7b%-?\+?)[ ]*?(\w(?:(?!%\x7d).)*?)[ ]*?(\+?-?%\x7d)"

/-- A tag with double braces, with the same groups. -/
def braceTag : Pattern :=
  .ofSource {} r"(\x7b\x7b)[ ]*?(\w(?:(?!\x7d\x7d).)*?)[ ]*?(\+?-?\x7d\x7d)"

/-- A block tag with double braces and a hash: all before the closing bracket, and that bracket. -/
def hashTag : Pattern :=
  .ofSource {} r"(\x7b\x7b#(?:each|if).+?[^ ])(\x7d\x7d)"

/-- Puts spaces between the first `n` groups of each match, unless it lies in an ignored span. -/
def spaceGroups (ignored : List Span) (n : Nat) (p : Pattern) (text : List Char) : List Char :=
  let chars := text.toArray
  p.replaceAll (fun m =>
    if ignored.any (Region.within m.span) then m.text chars
    else Text.joinWith [' '] ((List.range n).map fun i => m.capture chars (i + 1))) chars

/-- Spaces template tags.  The ignored spans are those of the text before any change. -/
def spaceTags (s : Settings) (text : List Char) : List Char :=
  let ignored := Region.ignoredSpans text.toArray
  if s.profile == "handlebars" then spaceGroups ignored 2 hashTag text
  else if s.profile == "golang" then text
  else spaceGroups ignored 3 braceTag (spaceGroups ignored 3 percentTag text)

end TemplateTidy.Layout
