import TemplateTidy.Pattern.Search

/-! # Regions

The parts of a document that are left alone: preformatted elements, scripts and styles, comments,
localized blocks, front matter, and what stands between an off mark and its on mark.  The patterns
of the regions are put together from the marks; braces are written `\x7b` and `\x7d` in them.  The
predicates on spans say how a match lies with respect to the regions. -/

namespace TemplateTidy.Region

open Text

/-- A choice between written patterns. -/
def anyOf (sources : List String) : String :=
  String.intercalate "|" sources

/-- The comments of one template language that turn the tool off and on. -/
structure Switch where
  /-- What stands before the word. -/
  head : String
  /-- The word up to `off` or `on`. -/
  word : String
  /-- What stands after the word. -/
  tail : String
  /-- What may stand between `off` and the end of a mark that turns single rules off. -/
  codes : String

/-- A plain comment. -/
def htmlSwitch : Switch :=
  { head := r"<!--\s*", word := r"djlint\:", tail := "-->", codes := ".+?" }

def commentSwitch : Switch :=
  { head := r"\x7b\#\s*", word := r"djlint\:\s*", tail := r"\#\x7d", codes := ".+?" }

def blockSwitch : Switch :=
  { head := r"\x7b%\s*comment\s*%\x7d\s*", word := r"djlint\:",
    tail := r"\x7b%\s*endcomment\s*%\x7d", codes := ".*?" }

/-- A double brace comment with dashes. -/
def dashSwitch : Switch :=
  { head := r"\x7b\x7b!--\s*", word := r"djlint\:", tail := r"--\x7d\x7d", codes := ".*?" }

/-- A double brace comment with stars. -/
def starSwitch : Switch :=
  { head := r"\x7b\x7b-?\s*/\*\s*", word := r"djlint\:", tail := r"\*/\s*-?\x7d\x7d",
    codes := ".*?" }

namespace Switch

/-- The mark that turns the tool off. -/
def off (s : Switch) : String :=
  s.head ++ s.word ++ r"off\s*" ++ s.tail

/-- The mark that turns the tool on. -/
def on (s : Switch) : String :=
  s.head ++ s.word ++ r"on\s*" ++ s.tail

/-- From an off mark to before the next on mark. -/
def betweenMarks (s : Switch) : String :=
  s.off ++ ".*?(?=" ++ s.on ++ ")"

/-- From an off mark to before the next on mark, or to the end. -/
def fromOff (s : Switch) : String :=
  s.off ++ "(?:(?!" ++ s.on ++ ").)*"

/-- From a mark that turns the rules of group 1 off to before the next on mark, or to the end. -/
def fromRuleOff (s : Switch) : String :=
  s.head ++ s.word ++ "off(" ++ s.codes ++ ")" ++ s.tail ++ "(?:(?!" ++ s.on ++ ").)*"

end Switch

/-- A localized block that is not trimmed, by its names. -/
def transBlock (name : String) : String :=
  r"\x7b%[ ]*?" ++ name ++ r"\b(?:(?!%\x7d|\btrimmed\b).)*?%\x7d.*?\x7b%[ ]*?end" ++ name ++
    r"[ ]*?%\x7d"

/-- A localized block that is trimmed, by its name. -/
def trimmedBlock (name : String) : String :=
  r"\x7b%[ ]*?" ++ name ++ r"\b(?:(?!%\x7d).)*?\btrimmed\b(?:(?!%\x7d).)*?%\x7d.*?\x7b%[ ]*?end" ++
    name ++ r"[ ]*?%\x7d"

/-- A comment block without its closing tag. -/
def commentBody : String :=
  r"\x7b%[ ]*?comment\b(?:(?!%\x7d).)*?%\x7d(?:(?!djlint:(?:off|on)).)*?"

/-- The closing tag of a comment block. -/
def commentEnd : String :=
  r"\x7b%[ ]*?endcomment[ ]*?%\x7d"

def templateComment : String :=
  r"\x7b\#(?!\s*djlint\:\s*(?:off|on)).*?\#\x7d"

/-- Front matter between lines of dashes. -/
def frontMatter : String :=
  r"^---[\s\S]+?---"

/-- Elements whose contents are kept: group 1 or 3 holds the tag name. -/
def keptElements : List String :=
  [r"<(pre|textarea).*?</(\1)>", r"<(script|style).*?(?=(\</(?:\3)>))"]

def keptBlocks : List String :=
  ["<!--.*?-->", r"<\?php.*?\?>", transBlock "blocktranslate", transBlock "blocktrans",
    commentBody ++ "(?=" ++ commentEnd ++ ")", frontMatter]

/-- Options of the patterns that look at whole documents. -/
def wide : Flags :=
  { dotAll := true, ignoreCase := true, verbose := true, multiline := true }

/-- Options of the patterns that look at single lines. -/
def narrow : Flags :=
  { ignoreCase := true, verbose := true }

/-- Ignored regions; an off mark without an on mark reaches to the end. -/
def ignoredSource : String :=
  anyOf (keptElements ++
    [htmlSwitch.betweenMarks, commentSwitch.fromOff, blockSwitch.fromOff, templateComment,
      dashSwitch.fromOff, starSwitch.fromOff] ++ keptBlocks)

/-- Ignored regions that end within the text. -/
def closedSource : String :=
  anyOf (keptElements ++
    [htmlSwitch.betweenMarks, commentSwitch.betweenMarks, blockSwitch.betweenMarks,
      templateComment, dashSwitch.betweenMarks, starSwitch.betweenMarks] ++ keptBlocks)

/-- Ignored regions within one line. -/
def inlineSource : String :=
  anyOf
    ["<!--.*?-->", r"<script.*?\</script>", r"<style.*?\</style>", r"\x7b\*.*?\*\x7d",
      r"\x7b\#(?!.*djlint:[ ]*?(?:off|on)\b).*\#\x7d", r"<\?php.*?\?>", commentBody ++ commentEnd,
      transBlock "blocktrans(?:late)?"]

/-- Regions that are not formatted.  The empty text is one everywhere. -/
def unformattedSource : String :=
  anyOf
    ["", htmlSwitch.betweenMarks, commentSwitch.betweenMarks, blockSwitch.betweenMarks,
      templateComment, dashSwitch.betweenMarks, starSwitch.betweenMarks, frontMatter]

def ignored : Pattern := .ofSource wide ignoredSource

def closed : Pattern := .ofSource wide closedSource

def inline : Pattern := .ofSource narrow inlineSource

def unformatted : Pattern := .ofSource wide unformattedSource

def templateTag : Pattern :=
  .ofSource wide r"\x7b%((?!%\x7d).)+%\x7d"

/-- A raw block up to before its closing tag. -/
def raw : Pattern :=
  .ofSource wide
    r"\x7b%-?[ ]*?raw\b(?:(?!%\x7d).)*?-?%\x7d.*?(?=\x7b%-?[ ]*?endraw[ ]*?-?%\x7d)"

/-- Regions in which single rules are off. -/
def rulesOff : List Pattern :=
  [htmlSwitch, commentSwitch, blockSwitch, dashSwitch, starSwitch].map fun s =>
    .ofSource { wide with multiline := false } s.fromRuleOff

/-- The beginning of a region that takes several lines. -/
def opening : Pattern :=
  .ofSource narrow <| anyOf
    ["<style", r"\x7b\*", r"<\?php", "<script", "<!--",
      r"[^\x7b]\x7b\#(?!\s*djlint\:\s*(?:on|off))", r"^\x7b\#(?!\s*djlint\:\s*(?:on|off))",
      "<pre", "<textarea",
      r"\x7b%[ ]*?blocktrans(?:late)?(?:(?!%\x7d|\btrimmed\b).)*?%\x7d", commentSwitch.off,
      r"\x7b%[ ]+?comment[ ]+?(?:(?!%\x7d).)*?%\x7d", dashSwitch.off, starSwitch.off]

def transEndSource : String :=
  r"\x7b%[ ]*?endblocktrans(?:late)?(?:(?!%\x7d).)*?%\x7d"

/-- The end of a region that takes several lines. -/
def closing : Pattern :=
  .ofSource narrow <| anyOf
    ["</style", r"\*\x7d", r"\?>", "</script", "-->", r"^(?:(?!\x7b\#).)*\#\x7d", "</pre",
      "</textarea", commentSwitch.on, r"(?<!djlint:off\s*?)\x7b%[ ]+?endcomment[ ]+?%\x7d",
      dashSwitch.on, starSwitch.on, transEndSource]

/-- The end of a region whose last line may be indented. -/
def safeClosing : Pattern :=
  .ofSource narrow <| anyOf
    ["</script", "</style", commentSwitch.on, r"\x7b%[ ]+?endcomment[ ]+?%\x7d", dashSwitch.on,
      starSwitch.on]

/-- Regions that are over before a safe end counts. -/
def inlineOrIgnored : Pattern :=
  .ofSource wide (anyOf [inlineSource, ignoredSource])

def transUntrimmed : Pattern :=
  .ofSource { wide with multiline := false }
    (anyOf [transBlock "blocktranslate?", transBlock "blocktrans"])

def transTrimmed : Pattern :=
  .ofSource { wide with multiline := false }
    (anyOf [trimmedBlock "blocktranslate", trimmedBlock "blocktrans"])

def transEnd : Pattern := .ofSource narrow transEndSource

/-! ### Lines -/

/-- What is left of a text after the last match of a pattern. -/
def afterLast (p : Pattern) (text : Array Char) : Array Char :=
  match (p.findAll text).getLast? with
  | some m => text.extract m.stop text.size
  | none => text

/-- Whether a line opens a region that does not end on it. -/
def opensOn (line : Array Char) : Bool :=
  opening.occurs (afterLast closed line)

/-- Whether a line closes a region that did not begin on it. -/
def closesOn (line : Array Char) : Bool :=
  closing.occurs (afterLast inline line)

/-- Whether a line closes a region in a way that lets the line be indented. -/
def closesSafelyOn (line : Array Char) : Bool :=
  safeClosing.occurs (afterLast inlineOrIgnored line)

/-! ### Spans -/

def spansOf (p : Pattern) (text : Array Char) : List Span :=
  (p.findAll text).map Match.span

def ignoredSpans (text : Array Char) : List Span :=
  spansOf ignored text ++ spansOf inline text

def within (s r : Span) : Bool :=
  r.start ≤ s.start && s.stop ≤ r.stop

/-- Lies within `r` and begins after it. -/
def childOf (s r : Span) : Bool :=
  r.start < s.start && s.stop ≤ r.stop

/-- Begins or ends within `r`, its ends included. -/
def touches (s r : Span) : Bool :=
  (r.start ≤ s.start && s.start ≤ r.stop) || (r.start ≤ s.stop && s.stop ≤ r.stop)

def inTemplateTag (text : Array Char) (s : Span) : Bool :=
  (spansOf templateTag text).any (within s)

def inRaw (text : Array Char) (s : Span) : Bool :=
  (spansOf raw text).any (within s)

def inIgnored (text : Array Char) (s : Span) : Bool :=
  (ignoredSpans text).any (within s)

/-- Inside a region that is not formatted, and after its beginning. -/
def childOfUnformatted (text : Array Char) (s : Span) : Bool :=
  (spansOf unformatted text).any (childOf s)

/-- Inside an ignored region, and after its beginning. -/
def childOfIgnored (text : Array Char) (s : Span) : Bool :=
  (ignoredSpans text).any (childOf s)

/-- Begins or ends in an ignored region. -/
def overlapsIgnored (text : Array Char) (s : Span) : Bool :=
  (ignoredSpans text).any (touches s)

def codeSeparator : Pattern :=
  .ofSource {} r"\s|,"

/-- A region in which rules are off: its span, and the codes it names. -/
structure RuleRegion where
  span : Span
  codes : List (List Char)
  /-- It names no code, so it holds for every rule. -/
  all : Bool
deriving DecidableEq, Repr

/-- The regions of a text in which rules are off. -/
def ruleRegions (text : Array Char) : List RuleRegion :=
  rulesOff.flatMap fun p =>
    (p.findAll text).map fun m =>
      let listed := strip (m.capture text 1)
      { span := m.span, codes := codeSeparator.split listed.toArray, all := listed.isEmpty }

/-- Whether a rule is off for a span: it begins in a region that names the rule, or ends in one that
names none. -/
def RuleRegion.covers (r : RuleRegion) (rule : List Char) (s : Span) : Bool :=
  (r.codes.contains rule && r.span.start ≤ s.start && s.start ≤ r.span.stop) ||
    (r.all && r.span.start ≤ s.stop && s.stop ≤ r.span.stop)

/-- Whether a rule is off for a span of a text. -/
def ruleOff (text : Array Char) (rule : List Char) (s : Span) : Bool :=
  (ruleRegions text).any (·.covers rule s)

/-- Whether `piece` closes a localized block whose text must stay as it is; `text` is the document up
to the end of the piece.  Positions in the piece are compared with positions in the document. -/
def inProtectedTrans (text piece : Array Char) : Bool :=
  match transEnd.find? piece with
  | none => false
  | some close =>
    let kept := (transUntrimmed.findAll text).getLast?
    let trimmed := (transTrimmed.findAll text).getLast?
    match kept, trimmed with
    | none, none => false
    | none, some t => t.stop < close.stop
    | some k, t =>
      if t.all (·.stop < k.stop) then
        if transUntrimmed.occurs piece then
          transEnd.occurs (text.extract k.stop text.size)
        else close.stop ≤ k.stop
      else t.any (·.stop < close.stop)

end TemplateTidy.Region
