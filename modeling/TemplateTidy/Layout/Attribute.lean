import TemplateTidy.Layout.Vocabulary
import TemplateTidy.Region

/-! # Attributes

`spreadAttributes` puts each attribute of a long tag on a line of its own, under the first one.
`alignTags` breaks the template tags inside one attribute and indents them. -/

namespace TemplateTidy.Layout

open Text

/-! ### Template tags inside an attribute -/

/-- A template tag inside an attribute. -/
def innerTag (s : Settings) : String :=
  r"((?:\x7b%|\x7b\x7b\#)[ ]*?(?:" ++ breakBlocks s ++ r")[^\x7d]+?[%|\x7d]\x7d)"

/-- Puts template tags inside an attribute on lines of their own. -/
def breakTags (s : Settings) (text : List Char) : Outcome (List Char) := do
  let before ← compileSource looseLines (notAtLineStart ++ r".\K" ++ innerTag s)
  let chars := text.toArray
  let text := before.replaceAll (fun m => '\n' :: m.text chars) chars
  let after ← compileSource looseLines (innerTag s ++ r"([^\n]+)$")
  let chars := text.toArray
  return after.replaceAll
    (fun m => m.capture chars 1 ++ '\n' :: strip (m.capture chars 2)) chars

/-- A number of spaces; none if the number is negative. -/
def spaces (n : Int) : List Char :=
  List.replicate n.toNat ' '

/-- A number of indents; none if the number is negative. -/
def indents (s : Settings) (n : Int) : List Char :=
  (List.replicate n.toNat s.indent).flatten

/-- The patterns that tell how a line of an attribute moves. -/
structure InnerPatterns where
  closing : Outcome Pattern
  divider : Outcome Pattern
  opening : Outcome Pattern

/-- Reads the patterns for the lines of an attribute. -/
def InnerPatterns.of (s : Settings) : InnerPatterns :=
  { closing := compileSource loose blockClosing
    divider := compileSource loose blockDivider
    opening := compileSource loose (blockOpening s) }

/-- The level of a trimmed line of an attribute, and the level after it. -/
def innerLevels (ps : InnerPatterns) (level : Int) (line : List Char) : Outcome (Int × Int) := do
  let chars := line.toArray
  let closing ← ps.closing
  if (closing.matchStart? chars).isSome then return (level - 1, level - 1)
  if ((← ps.divider).matchStart? chars).isSome then return (max (level - 1) 0, level)
  if (← ps.opening).occurs chars && !closing.occurs chars then return (level, level + 1)
  return (level, level)

/-- Indents the trimmed lines of an attribute from `level` on, and drops blank ones. -/
def alignLines (s : Settings) (ps : InnerPatterns) (spacing level : Int) :
    List (List Char) → Outcome (List Char)
  | [] => return []
  | line :: rest => do
    let (here, next) ← innerLevels ps level line
    let tail ← alignLines s ps spacing next rest
    let written := indents s here ++ spaces spacing ++ line
    return if (strip written).isEmpty then tail else '\n' :: written ++ tail

/-- Breaks and indents the template tags inside an attribute; the first line stays where it is. -/
def alignTags (s : Settings) (text : List Char) (spacing : Int) : Outcome (List Char) := do
  match (splitLines (← breakTags s text)).map strip with
  | [] => return []
  | first :: rest =>
    let ps := InnerPatterns.of s
    let (_, level) ← innerLevels ps 0 first
    return first ++ (← alignLines s ps spacing level rest)

/-! ### The attributes of a tag -/

/-- An attribute as it is written: a name and a value, or a template part. -/
structure Attribute where
  name : Option (List Char)
  /-- The value, without its quotes if they are a pair. -/
  value : Option (List Char)
  /-- The quote before the value. -/
  quote : Option Char
  /-- A template part outside any value. -/
  standalone : Option (List Char)
deriving DecidableEq, Repr

def attributePattern : Pattern :=
  .ofSource { verbose := true } Markup.attributeSource

/-- The value within its quotes: all of them go, if the first and the last are one pair. -/
def unquote (written : List Char) : List Char :=
  match written.head? with
  | some q =>
    if (q == '\'' || q == '"') && written.getLast? == some q then trimBoth (· == q) written
    else written
  | none => written

def Attribute.ofMatch (text : Array Char) (m : Match) : Attribute :=
  let written := m.capture? text 2
  { name := m.capture? text 1
    value := written.map unquote
    quote := (written.bind List.head?).filter fun c => c == '\'' || c == '"'
    standalone := m.capture? text 3 }

/-- The attributes in the text of a tag. -/
def attributesIn (text : List Char) : List Attribute :=
  let chars := text.toArray
  (attributePattern.findAll chars).map (Attribute.ofMatch chars)

/-- Joins again what stands between separators, without the blank parts. -/
def respace (sep : List Char) (space : List Char) (text : List Char) : List Char :=
  joinWith (sep ++ space) (((splitAtText sep text).map strip).filter (!·.isEmpty))

/-- Whether there is some text. -/
def filled (text : Option (List Char)) : Bool :=
  text.any (!·.isEmpty)

/-- The attributes whose values keep their template tags as they are. -/
def keptAttributes : List String :=
  ["href", "action", "data-url", "src", "url", "srcset", "data-src"]

def spreadValue (name : Option (List Char)) (space : List Char) (value : Option (List Char)) :
    Outcome (Option (List Char)) :=
  let low := name.map fun n => String.ofList (lower n)
  if low == some "style" then
    match value with
    | some v => return some (respace [';'] space v)
    | none => .error .missingOperation
  else if low.any ["srcset", "data-srcset", "sizes"].contains then
    match value with
    | some v => return some (respace ['x', ','] space (respace ['w', ','] space v))
    | none => .error .missingOperation
  else return value

/-- An attribute as it is written out, under `margin`. -/
def Attribute.layout (s : Settings) (margin : List Char) (a : Attribute) : Outcome (List Char) := do
  let nameLength := (a.name.getD []).length
  let quoteLength := if filled a.name && filled a.value then 2 else 1
  let alignInner := s.formatAttributeTemplateTags.truthy
  let space := '\n' :: margin ++
    (if alignInner then [] else List.replicate (quoteLength + nameLength) ' ')
  let value ← spreadValue a.name space a.value
  let value ←
    if alignInner && filled value && !a.name.any (keptAttributes.contains <| String.ofList ·) then
      some <$> alignTags s (value.getD []) (margin.length + nameLength + quoteLength : Nat)
    else pure value
  let standalone ←
    if alignInner && filled a.standalone then
      some <$> alignTags s (a.standalone.getD []) (margin.length + nameLength : Nat)
    else pure a.standalone
  if (filled a.name && filled value) || a.quote.isSome then
    let quote := a.quote.getD '"'
    return a.name.getD "None".toList ++ '=' :: quote :: value.getD [] ++ [quote]
  else return a.name.getD [] ++ value.getD [] ++ standalone.getD []

/-- A tag with attributes, after blanks: the groups are the blanks, the bracket with the name, the
attributes and the closing bracket. -/
def attributedTag (s : Settings) : Outcome Pattern :=
  compileSource loose
    (r"(\s*?)(<(?:" ++ elements s ++ r#")\b)((?:\"[^\"]*\"|'[^']*'|\x7b[^\x7d]*\x7d|"# ++
      r#"[^'\">\x7b\x7d\/])+?)(\s?/?>)"#)

/-- A tag with each attribute on a line of its own, if the attributes are long and the tag does not
lie in an ignored region of the line as it was. -/
def spreadAttributes (s : Settings) (line text : Array Char) (m : Match) : Outcome (List Char) := do
  let written := strip (m.capture text 3)
  if Region.childOfIgnored line m.span || (written.length : Int) < s.maxAttributeLength then
    return m.text text
  let blanks := m.capture text 1
  let tag := m.capture text 2 ++ [' ']
  let margin := blanks ++ List.replicate tag.length ' '
  let parts ← (attributesIn written).mapM (·.layout s margin)
  let body := joinWith ('\n' :: margin) (parts.filter (!·.isEmpty))
  return joinWith ['\n'] ((splitLines (blanks ++ tag ++ body ++ m.capture text 4)).map stripRight)

end TemplateTidy.Layout
