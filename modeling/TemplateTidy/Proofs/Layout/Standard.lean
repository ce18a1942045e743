import TemplateTidy.Settings.Basic

/-! # Standard settings

`Settings.standard` holds the values that a run has if neither the command line nor a configuration
file says otherwise; only what concerns checks and reports is left empty. -/

namespace TemplateTidy

/-- The settings of a run without options, for an indent and a line length. -/
def Settings.standard (indentWidth : Nat) (maxLineLength : Int) : Settings where
  reformat := .bool false
  check := .bool false
  lint := .bool false
  warn := .bool false
  projectRoot := default
  gitignore := []
  useGitignore := .bool false
  extension := "html"
  quiet := .bool false
  requirePragma := .bool false
  customBlocks := ""
  customHtml := ""
  formatAttributeTemplateTags := .bool false
  preserveLeadingSpace := .bool false
  ignoreBlocks := none
  preserveBlankLines := .bool false
  formatJs := .bool false
  jsConfig := .dict []
  cssConfig := .dict []
  formatCss := .bool false
  ignoreCase := .bool false
  closeVoidTags := .bool false
  noLineAfterYaml := .bool false
  ignoreCodes := ""
  includeCodes := ""
  files := .null
  stdin := false
  profileCode := []
  profile := "all"
  linterOutputFormat := .null
  rules := []
  statistics := .bool false
  indentSize := .int indentWidth
  indentWidth
  exclude := .null
  perFileIgnores := .dict []
  blankLineAfterTag := .null
  blankLineBeforeTag := .null
  lineBreakAfterMultilineTag := .bool false
  maxLineLength
  maxAttributeLength := 70

end TemplateTidy
