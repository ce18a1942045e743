import TemplateTidy.Number.Whole
import TemplateTidy.Pattern.Search
import TemplateTidy.Text.Line
import TemplateTidy.Text.Word

/-! # Options of code layout

`Options` say how embedded style sheets and scripts are laid out.  `Options.ofTable` reads them from a
table of the settings; an option that the table lacks has its default.  A subtable of the name `js`
stands above the table around it. -/

namespace TemplateTidy.Code

open Text

/-- Where the braces of blocks go. -/
inductive BraceStyle where
  /-- At the end of a line, and an `else` after the closing one. -/
  | collapse
  /-- On lines of their own. -/
  | expand
  /-- At the end of a line, and an `else` on a line of its own. -/
  | endExpand
  /-- Where they are. -/
  | asWritten
deriving DecidableEq, Repr

/-- Where an operator goes that has a line break beside it. -/
inductive OperatorPlace where
  | beforeBreak
  | afterBreak
  | asWritten
deriving DecidableEq, Repr

structure Options where
  /-- The text stays as it is. -/
  disabled : Bool
  /-- The line end of the result; without one, the first line end of the text. -/
  lineEnd : Option (List Char)
  endWithBreak : Bool
  /-- The width of one step of indentation. -/
  indentSize : Int
  /-- The text of one step of indentation. -/
  indentUnit : List Char
  /-- The steps of indentation that every line has. -/
  level : Int
  keepBreaks : Bool
  /-- The line breaks in a row that are kept at most. -/
  maxBreaks : Int
  /-- The width of a line, or 0 for any. -/
  wrapWidth : Int
  indentEmptyLines : Bool
  /-- The template languages whose tags may stand in names and strings. -/
  templating : List String
  braceStyle : BraceStyle
  unindentChained : Bool
  breakChained : Bool
  spaceInParens : Bool
  spaceInEmptyParens : Bool
  /-- The labels of a `switch` stand below it and not inside. -/
  flushLabels : Bool
  spaceAfterAnonymous : Bool
  spaceAfterNamed : Bool
  keepArrayIndentation : Bool
  spaceBeforeCondition : Bool
  unescapeStrings : Bool
  /-- Markup may stand where an expression may. -/
  inlineMarkup : Bool
  commaFirst : Bool
  operatorPlace : OperatorPlace

/-- The entries of a table, by name. -/
abbrev Fields := List (String × Value)

/-- Sets an entry: in place if the name is there, at the end otherwise. -/
def Fields.put (fields : Fields) (name : String) (v : Value) : Fields :=
  match fields with
  | [] => [(name, v)]
  | (n, w) :: rest => if n == name then (n, v) :: rest else (n, w) :: Fields.put rest name v

/-- Drops the entry of a name. -/
def Fields.erase (fields : Fields) (name : String) : Fields :=
  fields.filter fun field => field.1 != name

/-- The entries of a table, with underscores for the dashes of their names. -/
def Fields.ofEntries (entries : List (Value × Value)) : Fields :=
  let fields : Fields := entries.map fun (k, v) => (k.render, v)
  fields.foldl (fun now (name, v) =>
    if name.toList.contains '-' then
      Fields.put (Fields.erase now name)
        (String.ofList (name.toList.map fun c => if c = '-' then '_' else c)) v
    else now) fields

/-- Puts the entries of the subtable `js` over those around it. -/
def Fields.lift (fields : Fields) : Outcome Fields :=
  match fields.lookup "js" with
  | none => .ok fields
  | some v =>
    if !v.truthy then .ok fields
    else match v with
      | .dict inner =>
        .ok (inner.foldl (fun now (k, w) => Fields.put now k.render w) (Fields.erase fields "js"))
      | _ => .error .wrongType

/-- Words that cannot name an option. -/
def keywords : List String :=
  ["False", "None", "True", "and", "as", "assert", "async", "await", "break", "class", "continue",
    "def", "del", "elif", "else", "except", "finally", "for", "from", "global", "if", "import", "in",
    "is", "lambda", "nonlocal", "not", "or", "pass", "raise", "return", "try", "while", "with",
    "yield"]

def isName (s : String) : Bool :=
  match s.toList with
  | [] => false
  | c :: rest =>
    c != '$' && beginsName c && rest.all fun d => d != '$' && continuesName d

def Fields.check (fields : Fields) : Outcome Unit := do
  for (name, _) in fields do
    if !isName name then
      throw (.badOption ("Type names and field names must be valid identifiers: " ++ Value.quote name))
    if keywords.contains name then
      throw (.badOption ("Type names and field names cannot be a keyword: " ++ Value.quote name))
  for (name, _) in fields do
    if name.startsWith "_" then
      throw (.badOption ("Field names cannot start with an underscore: " ++ Value.quote name))

namespace Fields

/-- A yes or no. -/
def flag (fields : Fields) (name : String) (default : Bool) : Bool :=
  ((fields.lookup name).getD (.bool default)).truthy

/-- A whole number; a text that is none counts as 0. -/
def number (fields : Fields) (name : String) (default : Int) : Outcome Int :=
  match ((fields.lookup name).getD (.int default)).toInt with
  | .error (.notANumber _) => .ok 0
  | r => r

/-- Puts `c` for a backslash before the letter `mark`. -/
def unescape (mark c : Char) (s : List Char) : List Char :=
  joinWith [c] (splitAtText ['\\', mark] s)

/-- A text; another value counts as an empty one. -/
def text (fields : Fields) (name default : String) : List Char :=
  match (fields.lookup name).getD (.text default) with
  | .text s => unescape 't' '\t' (unescape 'n' '\n' (unescape 'r' '\r' s.toList))
  | _ => []

/-- What divides the words of a choice. -/
def divider : Pattern := .ofSource {} r"[^a-zA-Z0-9_/\-]+"

def listing (words : List String) : String :=
  (Value.list (words.map .text)).render

/-- The complaint about a choice. -/
def refusal (fields : Fields) (name verb : String) (allowed : List String) : Failure :=
  .badOption ("Invalid Option Value: The option '" ++ name ++ "' can " ++ verb ++
    " the following values:\n" ++ listing allowed ++ "\nYou passed in: '" ++
    ((fields.lookup name).getD .null).render ++ "'")

/-- One or more words out of a list, given as a list or as one text. -/
def choices (fields : Fields) (name : String) (allowed : List String) : Outcome (List String) := do
  let given := match fields.lookup name with
    | none => allowed.take 1
    | some (.list xs) => xs.map fun x => if x.isText then x.render else ""
    | some (.text s) => (divider.split s.toList.toArray).map String.ofList
    | some _ => []
  if given.isEmpty || !given.all allowed.contains then
    throw (refusal fields name "contain only" allowed)
  return given

/-- One word out of a list. -/
def choice (fields : Fields) (name : String) (allowed : List String) : Outcome String := do
  match ← choices fields name allowed with
  | [word] => return word
  | _ => throw (refusal fields name "only be one of" allowed)

end Fields

/-- The brace style of a list of words: the last one counts. -/
def BraceStyle.ofWords (words : List String) : BraceStyle :=
  words.foldl (fun now word =>
    match word with
    | "collapse" => .collapse
    | "expand" => .expand
    | "end-expand" => .endExpand
    | "none" => .asWritten
    | _ => now) .collapse

def OperatorPlace.ofWord : String → OperatorPlace
  | "after-newline" => .afterBreak
  | "preserve-newline" => .asWritten
  | _ => .beforeBreak

def Options.ofTable (table : Value) : Outcome Options := do
  let entries ← match table with
    | .dict entries => pure entries
    | _ => throw .wrongType
  let fields ← (Fields.ofEntries entries).lift
  fields.check
  let lineEnd := fields.text "eol" "auto"
  let size ← fields.number "indent_size" 4
  let char := fields.text "indent_char" " "
  let level ← fields.number "indent_level" 0
  let keepBreaks := fields.flag "preserve_newlines" true
  let maxBreaks ← fields.number "max_preserve_newlines" 32786
  let withTabs := fields.flag "indent_with_tabs" (char == ['\t'])
  let indentSize := if withTabs && size == 1 then 4 else size
  let maxChar ← fields.number "max_char" 0
  let wrapWidth ← fields.number "wrap_line_length" maxChar
  let templating ← fields.choices "templating"
    ["auto", "none", "django", "erb", "handlebars", "php", "smarty"]
  match fields.lookup "brace_style" with
  | some (.text "expand-strict") | some (.text "collapse-preserve-inline") => throw .missingOperation
  | _ => pure ()
  let braces ← fields.choices "brace_style"
    ["collapse", "expand", "end-expand", "none", "preserve-inline"]
  let operators ← fields.choice "operator_position"
    ["before-newline", "after-newline", "preserve-newline"]
  let flushLabels := fields.flag "jslint_happy" false
  return {
    disabled := fields.flag "disabled" false
    lineEnd := if lineEnd == "auto".toList then none else some lineEnd
    endWithBreak := fields.flag "end_with_newline" false
    indentSize
    indentUnit := if withTabs then ['\t'] else (List.replicate size.toNat char).flatten
    level, keepBreaks
    maxBreaks := if keepBreaks then maxBreaks else 0
    wrapWidth
    indentEmptyLines := fields.flag "indent_empty_lines" false
    templating
    braceStyle := .ofWords braces
    unindentChained := fields.flag "unindent_chained_methods" false
    breakChained := fields.flag "break_chained_methods" false
    spaceInParens := fields.flag "space_in_paren" false
    spaceInEmptyParens := fields.flag "space_in_empty_paren" false
    flushLabels
    spaceAfterAnonymous := flushLabels || fields.flag "space_after_anon_function" false
    spaceAfterNamed := fields.flag "space_after_named_function" false
    keepArrayIndentation := fields.flag "keep_array_indentation" false
    spaceBeforeCondition := fields.flag "space_before_conditional" true
    unescapeStrings := fields.flag "unescape_strings" false
    inlineMarkup := fields.flag "e4x" false
    commaFirst := fields.flag "comma_first" false
    operatorPlace := .ofWord operators }

end TemplateTidy.Code
