/-! # Markup

The names of elements, and the written patterns of attributes that several parts of the library
share.  Braces are written `\x7b` and `\x7d`; the patterns are read with blanks and comments skipped. -/

namespace TemplateTidy.Markup

def tagNames : List String := [
  "a", "abbr", "acronym", "address", "applet", "area", "article", "aside", "audio", "b", "base",
  "basefont", "bdi", "bdo", "bgsound", "big", "blink", "blockquote", "body", "br", "button",
  "canvas", "caption", "center", "cite", "code", "col", "colgroup", "command", "content", "data",
  "datalist", "dd", "del", "details", "dfn", "dialog", "dir", "div", "dl", "dt", "element", "em",
  "embed", "fieldset", "figcaption", "figure", "font", "footer", "form", "frame", "frameset",
  "h1", "h2", "h3", "h4", "h5", "h6", "head", "header", "hgroup", "hr", "html", "i", "iframe",
  "image", "img", "input", "ins", "isindex", "kbd", "keygen", "label", "legend", "li", "link",
  "listing", "main", "map", "mark", "marquee", "math", "menu", "menuitem", "meta", "meter",
  "multicol", "nav", "nextid", "nobr", "noembed", "noframes", "noscript", "object", "ol",
  "optgroup", "option", "output", "p", "param", "picture", "plaintext", "pre", "progress", "q",
  "rb", "rbc", "rp", "rt", "rtc", "ruby", "s", "samp", "script", "section", "select", "shadow",
  "slot", "small", "source", "spacer", "span", "strike", "strong", "style", "sub", "summary",
  "sup", "svg", "table", "tbody", "td", "template", "textarea", "tfoot", "th", "thead", "time",
  "title", "tr", "track", "tt", "u", "ul", "var", "video", "wbr", "xmp"]

/-- The names of the elements that have no closing tag. -/
def voidElements : List String := [
  "area", "base", "basefont", "bgsound", "br", "col", "command", "embed", "frame", "hr", "image",
  "img", "input", "isindex", "keygen", "link", "menuitem", "meta", "nextid", "param", "source",
  "track", "wbr"]

/-- A choice between the names of void elements. -/
def voidSource : String :=
  String.intercalate "|" voidElements

/-- A conditional or a loop with all that it encloses. -/
def conditionalSource : String :=
  r"(?:\x7b%-?\s?(?:if|for)[^\x7d]*?%\x7d(?:.*?\x7b%\s?end(?:if|for)[^\x7d]*?-?%\x7d)+?)"

/-- What may stand in a value between quotes other than the quote itself. -/
def quotedSource (quote : String) : String :=
  quote ++ "[^" ++ quote ++ "]*?(?:" ++ conditionalSource ++
    r"|\x7b\x7b.*?\x7d\x7d|\x7b%[^\x7d]*?%\x7d|[^" ++ quote ++ "])*?" ++ quote

/-- An attribute: its name in group 1 and its value in group 2, or a template part in group 3. -/
def attributeSource : String :=
  r"(?:((?:\w|-|\.|\:|@|/(?!>))+|required|checked)?(?:[ ]*?=[ ]*?(" ++ quotedSource "\"" ++ "|" ++
    quotedSource "'" ++ r"|(?:\w|-)+|\x7b\x7b.*?\x7d\x7d|\x7b%[^\x7d]*?%\x7d|" ++ conditionalSource ++
    "))?)|(" ++ conditionalSource ++ r"|\x7b\x7b.*?\x7d\x7d|\x7b\#.*?\#\x7d|\x7b%.*?%\x7d)"

end TemplateTidy.Markup
