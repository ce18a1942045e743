import TemplateTidy.Markup
import TemplateTidy.Settings.Basic

/-! # The vocabulary of the formatter

The names of elements and template blocks that the formatter knows, as written patterns.  Some lists
are closed; others take in the names that the settings add.  All are read with blanks and comments
skipped, and each list ends with a line feed before what follows it, so that a comment inside an added
name stays within the list. -/

namespace TemplateTidy.Layout

/-- A choice between written patterns. -/
def anyOf (sources : List String) : String :=
  String.intercalate "|" sources

def elements (s : Settings) : String :=
  anyOf Markup.tagNames ++ s.customHtml

/-- The names of the elements whose tags stand on lines of their own. -/
def breakNames : List String := [
  "html", "head", "body", "div", "nav", "ul", "ol", "dl", "dd", "dt", "li", "table", "thead", "tbody",
  "tr", "th", "td", "blockquote", "select", "form", "option", "optgroup", "fieldset", "legend", "label",
  "header", "cache", "main", "section", "aside", "footer", "figure", "figcaption", "video", "p", "g",
  "svg", r"h\d", "button", "path", "picture", "script", "style", "details", "summary"]

/-- The elements whose tags stand on lines of their own. -/
def breakElements (s : Settings) : String :=
  anyOf (breakNames ++ Markup.voidElements) ++ s.customHtml ++ "\n"

/-- The names of the elements that go back on one line if they are short. -/
def shortNames : List String := [
  "button", "a", "h1", "h2", "h3", "h4", "h5", "h6", "td", "th", "strong", "small", "em", "icon", "span",
  "title", "link", "path", "label", "div", "li", "script", "style", "head", "body", "p", "select",
  "article", "option", "legend", "summary", "dt", "figcaption", "tr", "li"]

/-- The elements that go back on one line if they are short. -/
def shortElements : String :=
  anyOf shortNames

/-- The template blocks that go back on one line if they are short. -/
def shortBlocks : String :=
  anyOf ["if", "for", "block", "with"]

/-- A condition that keeps the names out that the settings exclude. -/
def exclusion (s : Settings) : String :=
  match s.ignoreBlocks with
  | some names => "(?!" ++ names ++ ")"
  | none => ""

/-- An assignment tag without a value, which opens a block. -/
def openSet : String :=
  r"set(?!(?:(?!%\x7d).)*=)"

/-- The names of the template blocks whose contents are indented, but for assignments. -/
def indentBlockNames : List String := [
  "if", "for", "block(?!trans|translate)", "spaceless", "compress", "addto", "language", "with",
  "assets", "verbatim", "autoescape", "filter", "each", "macro", "call", "raw", "blocktrans(?!late)",
  "blocktranslate"]

/-- The template blocks whose contents are indented. -/
def indentBlocks (s : Settings) : String :=
  exclusion s ++ "(?:" ++ anyOf (indentBlockNames ++ [openSet]) ++ s.customBlocks ++ ")"

/-- The names of the template tags that stand on lines of their own, but for assignments. -/
def breakBlockNames : List String := [
  "if", "endif", "for", "endfor", "block(?!trans)", "endblock(?!trans)", "else", "plural",
  "spaceless", "endspaceless", "compress", "endcompress", "load", "include", "assets", "endassets",
  "addto", "language", "with", "endwith", "autoescape", "endautoescape", "filter", "endfilter", "elif",
  "resetcycle", "verbatim", "endverbatim", "each", "macro", "endmacro", "raw", "endraw", "call",
  "endcall", "image", "blocktrans(?!late)", "endblocktrans(?!late)", "blocktranslate",
  "endblocktranslate"]

/-- The template tags that stand on lines of their own. -/
def breakBlocks (s : Settings) : String :=
  exclusion s ++ "(?:" ++ anyOf (breakBlockNames ++ [openSet]) ++ s.customBlocks ++ ")\n"

/-- The opening tag of a template block whose contents are indented. -/
def blockOpening (s : Settings) : String :=
  r"(?:\x7b\x7b\#|\x7b%-?)[ ]*?(" ++ indentBlocks s ++ "\n)"

def blockClosing : String :=
  r"(?:(?:\x7b\x7b\/)|(?:\x7b%-?[ ]*?end(?!comment)))"

/-- A tag between the parts of a template block. -/
def blockDivider : String :=
  r"(?:\x7b%-?[ ]*?(?:elif|else|empty|plural))|(?:\x7b\x7b[ ]*?((?:else|\^)[ ]*?\x7d\x7d))"

/-- Not after a line feed and spaces. -/
def notAtLineStart : String :=
  r"(?<!\n[ ]*?)"

/-- A piece of a tag that is not its end: quoted text, a part in braces, or a plain character. -/
def tagPiece : String :=
  r#"\"[^\"]*\"|'[^']*'|\x7b[^\x7d]*\x7d|[^'\">\x7b\x7d]"#

/-- The options of patterns over names. -/
def loose : Flags :=
  { ignoreCase := true, verbose := true }

/-- The options of patterns over names and lines. -/
def looseLines : Flags :=
  { loose with multiline := true }

/-- Reads a pattern that holds names from the settings. -/
def compileSource (flags : Flags) (source : String) : Outcome Pattern :=
  compile flags source.toList

end TemplateTidy.Layout
