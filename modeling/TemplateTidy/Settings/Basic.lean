import TemplateTidy.Files.IgnoreFile
import TemplateTidy.Files.Tree
import TemplateTidy.Lint.Rule

/-! # Settings

`Settings` are the options of a run after all sources have been heard.  Options that a settings file
may give in any form keep the value they have there; what a file must give as text or number is
turned into it.  `Overrides` are the options that the caller gives, which win over the files. -/

namespace TemplateTidy

open Text

/-- Options given by the caller; an option that counts as no is left to the files. -/
structure Overrides where
  ignoreCodes : Value := .null
  extension : Value := .null
  indent : Value := .null
  quiet : Value := .bool false
  profile : Value := .null
  requirePragma : Value := .bool false
  reformat : Value := .bool false
  check : Value := .bool false
  lint : Value := .bool false
  useGitignore : Value := .bool false
  warn : Value := .bool false
  preserveLeadingSpace : Value := .bool false
  preserveBlankLines : Value := .bool false
  formatCss : Value := .bool false
  formatJs : Value := .bool false
  configuration : Value := .null
  statistics : Value := .bool false
  includeCodes : Value := .null
  ignoreCase : Value := .bool false
  ignoreBlocks : Value := .text ""
  customBlocks : Value := .text ""
  blankLineAfterTag : Value := .text ""
  blankLineBeforeTag : Value := .text ""
  lineBreakAfterMultilineTag : Value := .bool false
  customHtml : Value := .text ""
  exclude : Value := .text ""
  extendExclude : Value := .text ""
  linterOutputFormat : Value := .text ""
  maxLineLength : Value := .null
  maxAttributeLength : Value := .null
  formatAttributeTemplateTags : Value := .bool false
  /-- Pairs of a path pattern and codes. -/
  perFileIgnores : List (String × String) := []
  indentCss : Value := .null
  indentJs : Value := .null
  closeVoidTags : Value := .bool false
  noLineAfterYaml : Value := .bool false

/-- The options of a run. -/
structure Settings where
  reformat : Value
  check : Value
  lint : Value
  warn : Value
  /-- The absolute path of the project. -/
  projectRoot : Files.Path
  gitignore : Files.IgnoreFile
  useGitignore : Value
  extension : String
  quiet : Value
  requirePragma : Value
  /-- A choice between the names of further template blocks, with a leading bar. -/
  customBlocks : String
  /-- A choice between the names of further elements, with a leading bar. -/
  customHtml : String
  formatAttributeTemplateTags : Value
  preserveLeadingSpace : Value
  /-- A choice between the names of template blocks that are not formatted. -/
  ignoreBlocks : Option String
  preserveBlankLines : Value
  formatJs : Value
  jsConfig : Value
  cssConfig : Value
  formatCss : Value
  ignoreCase : Value
  closeVoidTags : Value
  noLineAfterYaml : Value
  ignoreCodes : String
  includeCodes : String
  files : Value
  stdin : Bool
  /-- The beginnings of codes that the profile switches off. -/
  profileCode : List String
  profile : String
  linterOutputFormat : Value
  rules : List Lint.Rule
  statistics : Value
  indentSize : Value
  /-- The number of spaces of one level of indentation. -/
  indentWidth : Nat
  exclude : Value
  perFileIgnores : Value
  blankLineAfterTag : Value
  blankLineBeforeTag : Value
  lineBreakAfterMultilineTag : Value
  maxLineLength : Int
  maxAttributeLength : Int

/-- Sets an option by its name: one that may have any form, or one of the lengths. -/
def Settings.assign? (name : String) (v : Value) (s : Settings) : Option Settings :=
  match name, v with
  | "reformat", _ => some { s with reformat := v }
  | "check", _ => some { s with check := v }
  | "lint", _ => some { s with lint := v }
  | "warn", _ => some { s with warn := v }
  | "use_gitignore", _ => some { s with useGitignore := v }
  | "quiet", _ => some { s with quiet := v }
  | "require_pragma", _ => some { s with requirePragma := v }
  | "format_attribute_template_tags", _ => some { s with formatAttributeTemplateTags := v }
  | "preserve_leading_space", _ => some { s with preserveLeadingSpace := v }
  | "preserve_blank_lines", _ => some { s with preserveBlankLines := v }
  | "format_js", _ => some { s with formatJs := v }
  | "js_config", _ => some { s with jsConfig := v }
  | "css_config", _ => some { s with cssConfig := v }
  | "format_css", _ => some { s with formatCss := v }
  | "ignore_case", _ => some { s with ignoreCase := v }
  | "close_void_tags", _ => some { s with closeVoidTags := v }
  | "no_line_after_yaml", _ => some { s with noLineAfterYaml := v }
  | "files", _ => some { s with files := v }
  | "linter_output_format", _ => some { s with linterOutputFormat := v }
  | "statistics", _ => some { s with statistics := v }
  | "indent_size", _ => some { s with indentSize := v }
  | "exclude", _ => some { s with exclude := v }
  | "per_file_ignores", _ => some { s with perFileIgnores := v }
  | "blank_line_after_tag", _ => some { s with blankLineAfterTag := v }
  | "blank_line_before_tag", _ => some { s with blankLineBeforeTag := v }
  | "line_break_after_multiline_tag", _ => some { s with lineBreakAfterMultilineTag := v }
  | "max_line_length", .int n => some { s with maxLineLength := n }
  | "max_attribute_length", .int n => some { s with maxAttributeLength := n }
  | _, _ => none

def Settings.indent (s : Settings) : List Char :=
  List.replicate s.indentWidth ' '

def commaNames (s : String) : List String :=
  (s.toList.splitOn ',').map fun part => String.ofList (strip part)

/-- Sorted by code point, without repeats. -/
def sortedNames (names : List String) : List String :=
  names.eraseDups.mergeSort fun a b => !decide (b < a)

/-- The text of a value that counts as yes; other values have none. -/
def textOf (v : Value) : Outcome (Option String) :=
  if v.truthy then
    match v with
    | .text s => .ok (some s)
    | _ => .error .missingOperation
  else .ok none

/-- A choice between template blocks and their ends, with a leading bar. -/
def customBlocksOf (v : Value) : Outcome (Option String) := do
  return (← textOf v).map fun s =>
    let names := commaNames s
    let all := names ++ names.map ("end" ++ ·)
    "|" ++ String.intercalate "|" (sortedNames (all.map (· ++ "\\b")))

/-- A choice between template blocks and their ends. -/
def ignoreBlocksOf (v : Value) : Outcome (Option String) := do
  return (← textOf v).map fun s =>
    let names := commaNames s
    let all := names ++ names.map ("end" ++ ·)
    String.intercalate "|" (sortedNames (all.map (· ++ "\\b")))

/-- A choice between element names, with a leading bar. -/
def customHtmlOf (v : Value) : Outcome (Option String) := do
  return (← textOf v).map fun s => "|" ++ String.intercalate "|" (commaNames s)

/-- The beginnings of codes that each profile switches off. -/
def profileCodes : List (String × List String) :=
  [("html", ["D", "J", "T", "N", "M"]), ("django", ["J", "N", "M"]), ("jinja", ["D", "N", "M"]),
    ("nunjucks", ["D", "J", "M"]), ("handlebars", ["D", "J", "N"]),
    ("golang", ["D", "J", "N", "M"]), ("angular", ["D", "J", "H012", "H026", "H028"])]

/-- The paths that are left out unless the settings say otherwise. -/
def defaultExclude : String := r"
            \.venv
            | venv/
            | \.tox
            | \.eggs
            | \.git
            | \.hg
            | \.mypy_cache
            | \.nox
            | \.svn
            | \.bzr
            | _build/
            | buck-out/
            | build/
            | dist/
            | \.pants\.d
            | \.direnv
            | node_modules/
            | __pypackages__
        "

end TemplateTidy
