import TemplateTidy.Data.Toml
import TemplateTidy.Data.Yaml.Node
import TemplateTidy.Journal
import TemplateTidy.Lint.Catalog
import TemplateTidy.Number.Whole
import TemplateTidy.Settings.Basic

/-! # Loading settings

The project root is the nearest directory with a mark of one.  Settings come from its TOML file, or
else from its JSON file, on top of a file that the caller names; the caller's own options win over all
of them.  Rules come from the catalog and from the project's rule file. -/

namespace TemplateTidy

open Text Files

/-- Whether a directory is the root of a project. -/
def isProjectRoot (t : Tree) (p : Path) : Bool :=
  t.has (p.child ".git") || t.isDirectory (p.child ".hg") ||
    t.isFile (p.child "pyproject.toml") || t.isFile (p.child ".djlintrc")

/-- The project root of a path: the path itself or the nearest directory above, or the root of all. -/
def projectRootOf (t : Tree) (src : Path) : Path :=
  ((src :: (t.resolve src).parents).find? (isProjectRoot t)).getD
    ((t.resolve src).parents.getLast?.getD src)

def loadIgnoreFile (t : Tree) (root : Path) : Run IgnoreFile := do
  let path := root.child ".gitignore"
  if t.isFile path then
    let text ← Stateful.lift (t.readText path)
    let lines := text.splitOn '\n'
    Stateful.lift (IgnoreFile.ofLines (lines.dropLast.map (· ++ ['\n']) ++ lines.getLast?.toList))
  else return []

/-- Adds the entries of the second table to the first. -/
def mergeTables (a b : Value) : Outcome Value :=
  match a, b with
  | .dict xs, .dict ys => .ok (.dict (ys.foldl (fun es e => Value.put es e.1 e.2) xs))
  | _, _ => .error .wrongType

def loadJson (t : Tree) (p : Path) : Option Value :=
  match t.readText p with
  | .ok text => Data.Json.read? text
  | .error _ => none

/-- The tool's own table in a TOML document; nothing if there is none. -/
def toolTable (content : Value) : Outcome (Option Value) :=
  match content.get? "tool" with
  | none => .ok none
  | some (.dict entries) => .ok ((Value.dict entries).get? "djlint")
  | some _ => .error .wrongType

def loadProjectSettings (t : Tree) (root : Path) (named : Value) : Run Value := do
  let mut content : Value := .dict []
  if named.truthy then
    match named with
    | .text s =>
      match loadJson t (t.resolve (Path.ofString s)) with
      | some v => content := v
      | none => Run.record .error "%sFailed to load config file %s. %s"
    | _ => Run.record .error "%sFailed to load config file %s. %s"
  let toml := root.child "pyproject.toml"
  if t.isFile toml then
    let text ← Stateful.lift (t.readText toml)
    match Data.Toml.read? text with
    | none => throw .badToml
    | some doc =>
      match ← Stateful.lift (toolTable doc) with
      | some table => return ← Stateful.lift (mergeTables content table)
      | none => Run.record .info "No pyproject.toml found."
  let json := root.child ".djlintrc"
  if t.isFile json then
    match (loadJson t json).map (mergeTables content) with
    | some (.ok v) => return v
    | _ => Run.record .error "%sFailed to load .djlintrc file. %s"
  return content

/-- Asks a rule of a rule file for an entry. -/
def ruleTable (item : Value) : Outcome Value :=
  match item with
  | .dict _ =>
    match item.get? "rule" with
    | none => .error (.missingKey (.text "rule"))
    | some (.dict entries) => .ok (.dict entries)
    | some _ => .error .missingOperation
  | _ => .error .wrongType

/-- Keeps the rules that are complete, and warns about the others. -/
def validateRules (items : List Value) : Run (List Value) := do
  let mut kept := []
  for item in items do
    let table ← Stateful.lift (ruleTable item)
    let name := ((table.get? "name").getD (.text "undefined")).render
    let nameless := (table.get? "name").isNone
    let testless := (table.get? "patterns").isNone && (table.get? "python_module").isNone
    let mute := (table.get? "message").isNone
    if nameless then Run.say "Warning: A rule is missing a name! 😢"
    if testless then
      Run.say ("Warning: Rule " ++ name ++ " is missing a pattern or a python_module! 😢")
    if mute then Run.say ("Warning: Rule " ++ name ++ " is missing a message! 😢")
    if !nameless && !testless && !mute then kept := item :: kept
  return kept.reverse

/-- The rule that a complete item of a rule file describes. -/
def ruleOf (item : Value) : Lint.Rule :=
  let table := (item.get? "rule").getD .null
  { name := (table.get? "name").getD .null
    message := (table.get? "message").getD .null
    test :=
      match table.get? "python_module" with
      | some name => .check name
      | none =>
        .written ((table.get? "flags").getD (.text "re.DOTALL")) ((table.get? "patterns").getD .null)
    exclude := (table.get? "exclude").getD (.list [])
    enabled := (table.get? "default").getD (.bool true) }

/-- The items of the project's rule file. -/
def loadRuleItems (t : Tree) (root : Path) : Run (List Value) := do
  let path := root.child ".djlint_rules.yaml"
  if t.isFile path then
    let text ← Stateful.lift (t.readText path)
    match Data.Yaml.read? text with
    | none => throw .badYaml
    | some (.list items) => return items
    | some _ => throw .wrongType
  else return []

/-- Whether a text occurs in a value: as an element, or as a part of a text. -/
def occursIn (s : String) (v : Value) : Outcome Bool :=
  match v with
  | .list xs | .tuple xs | .set xs => .ok (xs.any (· == .text s))
  | .dict entries => .ok (entries.any (·.1 == .text s))
  | .text t => .ok (Text.contains s.toList t.toList)
  | _ => .error .wrongType

/-- Whether a code is in a list with commas. -/
def listed (name : Value) (codes : String) : Bool :=
  (codes.toList.splitOn ',').any fun c => name == .text (String.ofList c)

def ruleIsOn (ignored included profile : String) (codes : List String) (rule : Lint.Rule) :
    Outcome Bool := do
  if listed rule.name ignored then return false
  let switched ← match rule.name, codes with
    | .text name, _ => pure (codes.any (name.startsWith ·))
    | _, [] => pure false
    | _, _ => throw .missingOperation
  if switched then return false
  if ← occursIn profile rule.exclude then return false
  return rule.enabled.truthy || listed rule.name included

/-- A numeric option: the caller's, the file's, or the default if the file's is no number. -/
def numberOption (given : Value) (table : Value) (name : String) (default : Int) : Run Int := do
  if given.truthy then Stateful.lift given.toInt
  else
    let written := (table.get? name).getD (.int default)
    match written.toInt with
    | .ok i => return i
    | .error (.notANumber _) => do
      Run.say ("Error: Invalid pyproject.toml " ++ name ++ " value " ++ written.render)
      return default
    | .error e => throw e

/-- The options of a run on a source. -/
def Settings.load (t : Tree) (src : String) (given : Overrides) : Run Settings := do
  let root := projectRootOf t (if src = "-" then t.current else Path.ofString src)
  let table ← loadProjectSettings t root given.configuration
  let gitignore ← loadIgnoreFile t root
  match table with
  | .dict _ => pure ()
  | _ => throw .missingOperation
  let option (own : Value) (name : String) (default : Value) : Value :=
    own.orElse ((table.get? name).getD default)
  let flag (own : Value) (name : String) : Value := option own name (.bool false)
  let requirePragma :=
    given.requirePragma.orElse
      (.bool (lower ((table.get? "require_pragma").getD (.text "false")).render.toList == "true".toList))
  let customBlocks ← Stateful.lift (customBlocksOf (option given.customBlocks "custom_blocks" .null))
  let customHtml ← Stateful.lift (customHtmlOf (option given.customHtml "custom_html" .null))
  let ignoreBlocks ← Stateful.lift (ignoreBlocksOf (option given.ignoreBlocks "ignore_blocks" (.text "")))
  let sized (own : Value) (name : String) : Value :=
    let v := if own.truthy then .dict [(.text "indent_size", own)] else (table.get? name).getD .null
    if v.truthy then v else .dict []
  let ignoreCodes := (option given.ignoreCodes "ignore" (.text "")).render
  let includeCodes := (option given.includeCodes "include" (.text "")).render
  let profileName (default : String) :=
    String.ofList (lower (option given.profile "profile" (.text default)).render.toList)
  let profileCode := (profileCodes.lookup (profileName "html")).getD []
  let profile := profileName "all"
  let items ← loadRuleItems t root
  let custom := (← validateRules items).map ruleOf
  let rules ← Stateful.lift ((Lint.Catalog.all ++ custom).filterM
    (ruleIsOn ignoreCodes includeCodes profile profileCode))
  let indentSize ←
    if given.indent.truthy then pure given.indent
    else Value.int <$> numberOption .null table "indent" 4
  let indentWidth ← Stateful.lift indentSize.toInt
  let exclude := option given.exclude "exclude" (.text defaultExclude)
  let extra ← Stateful.lift (textOf (option given.extendExclude "extend_exclude" (.text "")))
  let exclude ← match extra, exclude with
    | none, e => pure e
    | some s, .text e => pure (.text (e ++ " | " ++ String.intercalate " | " (commaNames s)))
    | some _, _ => throw .wrongType
  let perFileIgnores : Value :=
    if given.perFileIgnores.isEmpty then (table.get? "per-file-ignores").getD (.dict [])
    else .dict (given.perFileIgnores.foldl (fun es p => Value.put es (.text p.1) (.text p.2)) [])
  let maxLineLength ← numberOption given.maxLineLength table "max_line_length" 120
  let maxAttributeLength ← numberOption given.maxAttributeLength table "max_attribute_length" 70
  return {
    reformat := given.reformat, check := given.check, lint := given.lint, warn := given.warn
    projectRoot := t.resolve root, gitignore
    useGitignore := flag given.useGitignore "use_gitignore"
    extension := (option given.extension "extension" (.text "html")).render
    quiet := flag given.quiet "quiet"
    requirePragma
    customBlocks := customBlocks.getD ""
    customHtml := customHtml.getD ""
    formatAttributeTemplateTags :=
      flag given.formatAttributeTemplateTags "format_attribute_template_tags"
    preserveLeadingSpace := flag given.preserveLeadingSpace "preserve_leading_space"
    ignoreBlocks
    preserveBlankLines := flag given.preserveBlankLines "preserve_blank_lines"
    formatJs := flag given.formatJs "format_js"
    jsConfig := sized given.indentJs "js"
    cssConfig := sized given.indentCss "css"
    formatCss := flag given.formatCss "format_css"
    ignoreCase := flag given.ignoreCase "ignore_case"
    closeVoidTags := flag given.closeVoidTags "close_void_tags"
    noLineAfterYaml := flag given.noLineAfterYaml "no_line_after_yaml"
    ignoreCodes, includeCodes
    files := (table.get? "files").getD .null
    stdin := false
    profileCode, profile
    linterOutputFormat :=
      option given.linterOutputFormat "linter_output_format"
        (.text "\x7bcode\x7d \x7bline\x7d \x7bmessage\x7d \x7bmatch\x7d")
    rules
    statistics := given.statistics
    indentSize
    indentWidth := indentWidth.toNat
    exclude, perFileIgnores
    blankLineAfterTag := option given.blankLineAfterTag "blank_line_after_tag" .null
    blankLineBeforeTag := option given.blankLineBeforeTag "blank_line_before_tag" .null
    lineBreakAfterMultilineTag :=
      flag given.lineBreakAfterMultilineTag "line_break_after_multiline_tag"
    maxLineLength, maxAttributeLength }

end TemplateTidy
