import TemplateTidy.Lint.Repeat
import TemplateTidy.Lint.Rule

/-! # The built-in rules

Each rule by its code, with the patterns that find what it forbids.  The first letter of a code says
where the rule holds: H everywhere, T in template languages, D and J in one of them.  Braces are
written `\x7b` and `\x7d`. -/

namespace TemplateTidy.Lint.Catalog

/-- Template delimiters stand one blank away from what they enclose. -/
def t001 : Rule where
  name := .text "T001"
  message := .text "Variables should be wrapped in a single whitespace."
  test := .ready { dotAll := true } [
    r"\x7b\x7b[^\s#/@^\-\+]+",
    r"\x7b%[\-\+][^\s]+",
    r"\x7b%[^\s|\-|\+]+",
    r"[^\x7b]\x7b#[^\s-]+|^\x7b#[^\s-]+",
    r"[^\x7b]\x7b#-[^\s]+|^\x7b#-[^\s]+",
    r"[^\x7b]\x7b\/[^\s]+|^\x7b\/[^\s]+",
    r"[^\x7b]\x7b\@[^\s]+|^\x7b\@[^\s]+",
    r"[^(\s|^|\-|\+)]+[\x7d|%|#]\x7d",
    r"[^(\s|^)]+\-[\x7d|%|#]\x7d",
    r"[^(\s|^)]+\+[\x7d|%|#]\x7d",
    "[^\\s\\-\\+][ ]\x7b2,\x7d[\\x7d|%|#]\\x7d",
    "\\x7b[\\x7b|%|#]\\-?\\+?[ ]\x7b2,\x7d"]
  exclude := .list [.text "handlebars", .text "golang"]

/-- Arguments of template tags are in double quotes. -/
def t002 : Rule where
  name := .text "T002"
  message := .text "Double quotes should be used in tags."
  test := .ready { dotAll := true } [
    "\\x7b%[ \t]*?(?:trans(?:late)?|with|extends|include|now)[\\s]+?(?:" ++
        "(?:(?!%\\x7d|').)+?=)?'(?:(?!%\\x7d|').)*?'(?:(?!%\\x7d).)*?%\\x7d"]

/-- A closing block tag repeats the name of its block. -/
def t003 : Rule where
  name := .text "T003"
  message := .text "Endblock should have name. Ex: \x7b% endblock body %\x7d."
  test := .ready { dotAll := true } [
    r"\x7b%\s*?endblock\s*?%\x7d"]

/-- Static addresses go through the static tag. -/
def d004 : Rule where
  name := .text "D004"
  message := .text "(Django) Static urls should follow \x7b% static path/to/file %\x7d pattern."
  test := .ready { dotAll := true } [
    r#"<(?:link|img|script|source)\s[^\>]*?(?:href|src|srcset)=[\"\']/?static/?"#]

/-- Static addresses go through the address function. -/
def j004 : Rule where
  name := .text "J004"
  message := .text "(Jinja) Static urls should follow \x7b\x7b url_for('static'..) \x7d\x7d pattern."
  test := .ready { dotAll := true } [
    r#"<(?:link|img|script|source)\s[^\>]*?(?:href|src|srcset)=[\"\']/?static/?"#]

/-- The root element names its language. -/
def h005 : Rule where
  name := .text "H005"
  message := .text "Html tag should have lang attribute."
  test := .ready { dotAll := true, ignoreCase := true } [
    r"<html\s*(?:(?!lang).)*>"]

/-- Images give their height and their width. -/
def h006 : Rule where
  name := .text "H006"
  message := .text "Img tag should have height and width attributes."
  test := .ready { dotAll := true, ignoreCase := true } [
    r"<img\b(?:(?!(?:height)=)[^>])*/?>",
    r"<img\b(?:(?!(?:width)=)[^>])*/?>"]

/-- The document type stands before the root element. -/
def h007 : Rule where
  name := .text "H007"
  message := .text "<!DOCTYPE ... > should be present before the html tag."
  test := .ready { dotAll := true, ignoreCase := true } [
    r"^<html"]

/-- Attribute values are in double quotes. -/
def h008 : Rule where
  name := .text "H008"
  message := .text "Attributes should be double quoted."
  test := .ready { dotAll := true, ignoreCase := true } [
    r#"<(?:\w+)\b(\"[^\"]*\"|'[^']*'|\x7b[^\x7d]*\x7d|[^'\">\x7b\x7d])*(?:class"# ++
        r#"|id|src|width|height|alt|style|lang|title|srcset|media)=\'[^\']*'"#]

/-- Tag names are in lower case. -/
def h009 : Rule where
  name := .text "H009"
  message := .text "Tag names should be lowercase."
  test := .ready { dotAll := true } [
    r"(?<=<)/?(?:HTML|BODY|DIV|P|SPAN|TABLE|TR|TD|TH|THEAD|TBODY|CODE|UL" ++
        r"|OL|LI|H1|H2|H3|H4|H5|H6)"]

/-- Attribute names are in lower case. -/
def h010 : Rule where
  name := .text "H010"
  message := .text "Attribute names should be lowercase."
  test := .ready { dotAll := true } [
    r"<\w+[^\>]+?(?:CLASS|ID|SRC|WIDTH|HEIGHT|ALT|STYLE|LANG|TITLE|MEDIA|SRCSET)="]

/-- Attribute values are quoted. -/
def h011 : Rule where
  name := .text "H011"
  message := .text "Attribute values should be quoted."
  test := .ready { dotAll := true, ignoreCase := true, multiline := true, verbose := true } [
    "<(?:(?!meta)\\w+)\\b(\\\"[^\\\"]*\\\"|'[^']*'|\\x7b[^\\x7d]*\\x7d|[^'\\\">\\x7b\\x7d" ++
        "])*(?:class|id|src|width|height|alt|style|lang|title|href|action|method" ++
        "|checked|required|srcset)=[a-zA-Z_-]+",
    r"<(?:meta)\s+?[^>]*?(?:class|id|src|alt|style|lang|title|href|action" ++
        r"|method|name)=[a-zA-Z_-]+"]

/-- No blanks stand around the equals sign of an attribute. -/
def h012 : Rule where
  name := .text "H012"
  message := .text "There should be no spaces around attribute =."
  test := .ready { dotAll := true } [
    r#"<\w+?(\"[^\"]*\"|'[^']*'|\x7b[^\x7d]*\x7d|[^'\">\x7b\x7d])*\s+="#,
    r#"<\w+?(\"[^\"]*\"|'[^']*'|\x7b[^\x7d]*\x7d|[^'\">\x7b\x7d])*=\s"#]

/-- Images have an alternative text. -/
def h013 : Rule where
  name := .text "H013"
  message := .text "Img tag should have an alt attribute."
  test := .ready { dotAll := true, ignoreCase := true } [
    r"<img\b(?:(?!(?:alt)=)[^>])*/?>"]

/-- There are no runs of blank lines. -/
def h014 : Rule where
  name := .text "H014"
  message := .text "Found extra blank lines."
  test := .ready { dotAll := true } [
    "[^\n]\x7b,10\x7d\n\x7b3,\x7d"]

/-- A line ends after a heading. -/
def h015 : Rule where
  name := .text "H015"
  message := .text "Follow h tags with a line break."
  test := .ready { dotAll := true } [
    "</h\\d?>(?:(?!(.+\\r?\\n)\x7b1,\x7d).)*<[a-zA-Z]+\\d?"]

/-- The document has a title. -/
def h016 : Rule where
  name := .text "H016"
  message := .text "Missing title tag in html."
  test := .ready { dotAll := true, ignoreCase := true } [
    r"<html[^>]*?>(?:(?!<title>).)*</html>"]

/-- Void elements close themselves; off unless asked for. -/
def h017 : Rule where
  name := .text "H017"
  message := .text "Void tags should be self closing."
  test := .ready { dotAll := true, ignoreCase := true } [
    r#"<(img|input|area|base|br|col[^(?:group)]|embed|hr|link|param|source"# ++
        r#"|track|wbr|command|keygen|menuitem|path)(\b(\"[^\"]*\"|'[^']*'|\x7b\x7b[^\x7d]*\x7d"# ++
        r#"\x7d|\x7b%[^%]*%\x7d|\x7b#[^#]*#\x7d|[^'\">\x7b\x7d])*)(?<!/)>"#,
    r"<(img|input|area|base|br|col|embed|hr|link|param|source|track|wbr|command" ++
        r"|keygen|menuitem|path)>"]
  enabled := .bool false

/-- Internal links go through the address tag. -/
def d018 : Rule where
  name := .text "D018"
  message := .text "(Django) Internal links should use the \x7b% url ... %\x7d pattern."
  test := .ready { dotAll := true, ignoreCase := true } [
    r#"<(?:a|div|span|input)\b[^>]*?\s(?:href|data-url|data-src|action)=[\""# ++
        r#"|'](?!(?:https?://)|javascript:|on\w+:|mailto:|tel:|data:)[\w|/]+"#,
    r#"<form\b[^>]*?(?:\saction)=[\"|'](?!(?:https?://)|javascript:|on\w+:|mailto:|tel:)[\w|/]+"#]

/-- Internal links go through the address function. -/
def j018 : Rule where
  name := .text "J018"
  message := .text "(Jinja) Internal links should use the \x7b\x7b url_for() ... \x7d\x7d pattern."
  test := .ready { dotAll := true, ignoreCase := true } [
    r#"<(?:a|div|span|input)\b[^>]*?\s(?:href|data-url|data-src|action)=[\""# ++
        r#"|'](?!(?:https?://)|javascript:|on\w+:|mailto:|tel:|data:)[\w|/]+"#,
    r#"<form\s+?[^>]*?(?:action)=[\"|'](?!(?:https?://)|javascript:|on\w+:|mailto:|tel:)[\w|/]+"#]

/-- No address runs a script. -/
def h019 : Rule where
  name := .text "H019"
  message := .text "Replace 'javascript:abc()' with on_ event and real url."
  test := .ready { dotAll := true, ignoreCase := true } [
    r#"<(?:a|div|span|input)\s+?[^>]*?(?:href|data-url)=[\"|']javascript:[\w|/]+"#,
    r#"<form\s+?[^>]*?(?:action)=[\"|']javascript:[\w|/]+"#]

/-- No element is empty, table cells and list items apart. -/
def h020 : Rule where
  name := .text "H020"
  message := .text "Empty tag pair found. Consider removing."
  test := .ready { dotAll := true, ignoreCase := true } [
    r"<((?!td|li|th|dt|dd)\w+)\s*?>\s*?<\/\1>"]

/-- There are no inline styles. -/
def h021 : Rule where
  name := .text "H021"
  message := .text "Inline styles should be avoided."
  test := .ready { ignoreCase := true } [
    r"<\w+\s(?:[^>]*\s)?style=(?=((?!>|\x7b\x7b|\x7b%).)*>)"]

/-- External addresses are secure. -/
def h022 : Rule where
  name := .text "H022"
  message := .text "Use HTTPS for external links."
  test := .ready { ignoreCase := true } [
    r#"<\w+\s[^>]*?(?:href|data-url|action|src|url|srcset)=[\"|']http://[^>]*?>"#]

/-- Characters are written as such, the basic entities apart. -/
def h023 : Rule where
  name := .text "H023"
  message := .text "Do not use entity references."
  test := .ready { ignoreCase := true } [
    "&(?!(lt|gt|amp|quot|nbsp|ensp|emsp|thinsp))[#0-9a-z]\x7b,30\x7d;"]

/-- Scripts and styles do not name their usual type. -/
def h024 : Rule where
  name := .text "H024"
  message := .text "Omit type on scripts and styles."
  test := .ready { ignoreCase := true } [
    r#"<(?:script|style)[^>]*?type=[\"|'](?:(?:text/css)|(?:text/javascript))[^>]*?>"#]

/-- Every opening tag has its closing tag and the other way round. -/
def h025 : Rule where
  name := .text "H025"
  message := .text "Tag seems to be an orphan."
  test := .check (.text "djlint.rules.H025")

/-- No id or class is empty. -/
def h026 : Rule where
  name := .text "H026"
  message := .text "Empty id and class tags can be removed."
  test := .ready { ignoreCase := true } [
    r#"<\w+\b[^(?:\x7b(?:%|\x7b|#))>]*?\b(class|id)\b=(\"\"|'')"#,
    r#"<\w+\b[^(?:\x7b(?:%|\x7b|#))>-]*?\b(class|id)\b[^=\"-]"#]

/-- Every text in a template tag is closed. -/
def t027 : Rule where
  name := .text "T027"
  message := .text "Unclosed string found in template syntax."
  test := .ready { ignoreCase := true } [
    r"\x7b%((?:(?!'|%\x7d).)*?(')(?:(?!\2|%\x7d).)*?\2(?:(?!\2|%\x7d).)*?)*\2" ++
        r"(?:(?!\2|%\x7d).)*?%\x7d",
    r#"\x7b%((?:(?!"|%\x7d).)*?(")(?:(?!\2|%\x7d).)*?\2(?:(?!\2|%\x7d).)*?)*\2"# ++
        r#"(?:(?!\2|%\x7d).)*?%\x7d"#,
    r"\x7b\x7b((?:(?!'|\x7d\x7d).)*?(')(?:(?!\2|\x7d\x7d).)*?\2(?:(?!\2|\x7d\x7d).)*?)*" ++
        r"\2(?:(?!\2|\x7d\x7d).)*?\x7d\x7d",
    r#"\x7b\x7b((?:(?!"|\x7d\x7d).)*?(")(?:(?!\2|\x7d\x7d).)*?\2(?:(?!\2|\x7d\x7d).)*?)*"# ++
        r#"\2(?:(?!\2|\x7d\x7d).)*?\x7d\x7d"#,
    r#"\x7b%((?:(?!'|"|%\x7d).)*?('|")(?:(?!\2|%\x7d).)*?)%\x7d"#,
    r#"\x7b\x7b((?:(?!'|"|\x7d\x7d).)*?('|")(?:(?!\2|\x7d\x7d).)*?)\x7d\x7d"#]

/-- Template tags inside attribute values trim their blanks. -/
def t028 : Rule where
  name := .text "T028"
  message := .text "Consider using spaceless tags inside attribute values. \x7b%- if/for -%\x7d"
  test := .ready { dotAll := true } [
    r#"<(?:/?(?:\w+)\b(?:\"[^\"]*\"|'[^']*'|\x7b[^\x7d]*\x7d|[^'\">\x7b\x7d/])*"# ++
        r#"(?<!\bclass)=([\"'])(?:(?!\1).)*?(\x7b%)[^-])\s*?(?:if|for|else|end)"#,
    r#"<(?:/?(?:\w+)\b(?:\"[^\"]*\"|'[^']*'|\x7b[^\x7d]*\x7d|[^'\">\x7b\x7d/])*"# ++
        r#"(?<!\bclass)=([\"'])(?:(?!\1).)*?\x7b%(?:(?!%\x7d).)*(?:if|else|for"# ++
        r#"|end)(?:(?!%\x7d).)*[^-](%\x7d))"#]
  exclude := .list [.text "django"]

/-- The method of a form is in lower case. -/
def h029 : Rule where
  name := .text "H029"
  message := .text "Consider using lowercase form method values."
  test := .ready { dotAll := true } [
    r#"<[fF][oO][rR][mM]\b(?:\"[^\"]*\"|'[^']*'|\x7b[^\x7d]*\x7d|[^'\">\x7b\x7d/])*"# ++
        r#"([mM][eE][tT][hH][oO][dD])=(([\"'])[a-zA-Z]*?[A-Z][a-zA-Z]*?\3)"#]

/-- The document has a description. -/
def h030 : Rule where
  name := .text "H030"
  message := .text "Consider adding a meta description."
  test := .ready { dotAll := true, ignoreCase := true } [
    r#"<html[^>]*?>(?:(?!<meta[^>]*?name=([\"|'])description\b).)*</html>"#]

/-- The document has keywords. -/
def h031 : Rule where
  name := .text "H031"
  message := .text "Consider adding meta keywords."
  test := .ready { dotAll := true, ignoreCase := true } [
    r#"<html[^>]*?>(?:(?!<meta[^>]*?name=([\"|'])keywords\b).)*</html>"#]

/-- Template tags have no runs of blanks. -/
def t032 : Rule where
  name := .text "T032"
  message := .text "Extra whitespace found in template tags."
  test := .ready { dotAll := true } [
    "\\x7b%(([\"|'](?:(?!'|\"|%\\x7d).)*?[\"|'])|[^(?:%\\x7d|'|\"|\n)])*?[ \t]\x7b2,\x7d",
    "\\x7b\\x7b(([\"|'](?:(?!'|\"|\\x7d\\x7d).)*?[\"|'])|[^(?:\\x7d\\x7d" ++
        "|'|\"|\n)])*?[ \t]\x7b2,\x7d"]

/-- The action of a form has no blanks at its ends. -/
def h033 : Rule where
  name := .text "H033"
  message := .text "Extra whitespace found in form action."
  test := .ready { dotAll := true } [
    r#"<form[^>]+?action=['|"]\s"#,
    r#"<form[^>]+?action=(['|"])(\x7b\x7b(?:(?!\x7d\x7d).)*\x7d\x7d|\x7b%"# ++
        r#"(?:(?!%\x7d).)*%\x7d|([^"'\x7b]))*\s+?\1"#]

/-- The closing delimiter of a template tag is not turned around. -/
def t034 : Rule where
  name := .text "T034"
  message := .text "Did you intend to use \x7b% ... %\x7d instead of \x7b% ... \x7d%?"
  test := .ready { dotAll := true } [
    r"\x7b%(?:(?!%\x7d).)*\x7d%"]

/-- Meta elements close themselves; off unless asked for. -/
def h035 : Rule where
  name := .text "H035"
  message := .text "Meta tags should be self closing."
  test := .ready { dotAll := true, ignoreCase := true } [
    r#"<(meta)(\b(\"[^\"]*\"|'[^']*'|\x7b\x7b[^\x7d]*\x7d\x7d|\x7b%[^%]*%\x7d"# ++
        r#"|\x7b#[^#]*#\x7d|[^'\">\x7b\x7d])*)(?<!/)>"#,
    r"<(meta)>"]
  enabled := .bool false

/-- There are no line break elements; off unless asked for. -/
def h036 : Rule where
  name := .text "H036"
  message := .text "Avoid use of <br> tags."
  test := .ready { ignoreCase := true } [
    r"<br\s*?\/?>"]
  enabled := .bool false

/-- No attribute is given twice. -/
def h037 : Rule where
  name := .text "H037"
  message := .text "Duplicate attribute found."
  test := .search repeatedAttributes

/-- The built-in rules in order. -/
def all : List Rule :=
  [t001, t002, t003, d004, j004, h005, h006, h007, h008, h009, h010, h011, h012, h013, h014,
    h015, h016, h017, d018, j018, h019, h020, h021, h022, h023, h024, h025, h026, t027, t028,
    h029, h030, h031, t032, h033, t034, h035, h036, h037]

end TemplateTidy.Lint.Catalog
