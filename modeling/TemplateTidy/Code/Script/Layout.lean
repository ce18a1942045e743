import TemplateTidy.Code.Script.Frame
import TemplateTidy.Text.Percent

/-! # Layout of scripts

`Script.layout` writes a script with one statement a line and the contents of blocks indented.  There
is a function for each kind of token; it decides what comes before the token (a line, a space,
nothing), prints it, and opens or closes frames. -/

namespace TemplateTidy.Code.Script

open Text

namespace Writing

/-- Whether the current token is one of these reserved words. -/
def currentIs (words : List String) : Writing Bool :=
  return (← get).current.isReserved words

/-- Whether the value of a property of an object begins here. -/
def beginsProperty (f : Frame) : Bool :=
  (f.last.text == ":" && f.ternaries = 0) || f.last.isReserved ["get", "set"]

/-- Whether a statement of an object begins with the value of a property. -/
def startsProperty : Writing Bool := do
  let f ← frame
  return (← parent).mode = .object && f.mode = .statement && beginsProperty f

/-- Whether the current token begins a statement. -/
def startsStatement : Writing Bool := do
  let s ← get
  let f := s.frame
  let t := f.last
  let c := s.current
  let inProperty := (← parent).mode = .object && f.mode = .statement
  return (t.isReserved ["var", "let", "const"] && c.kind = .word) ||
    t.isReserved ["do"] ||
    (!inProperty && t.isReserved unbreakable && c.gap.breaks = 0) ||
    (t.isReserved ["else"] && !(c.isReserved ["if"] && c.comments.isEmpty)) ||
    (t.kind = .closeExpr && (s.former.mode = .forHead || s.former.mode = .condition)) ||
    (t.kind = .word && f.mode = .block && !f.inLabel && !(c.text == "--" || c.text == "++") &&
      s.lastLast != "function" && c.kind != .word && c.kind != .reserved) ||
    (f.mode = .object && beginsProperty f)

/-- Opens a frame for the statement that the current token begins, if it begins one.  Answers whether
it does. -/
def openStatement : Writing Bool := do
  if ← startsStatement then
    openFrame .statement
    indent
    lead true
    if !(← startsProperty) then allowBreak (← currentIs ["do", "for", "if", "while"])
    return true
  else return false

/-- Allows a line break, unless the value of a property begins here. -/
def allowBreakInside : Writing Unit := do
  if !(← startsProperty) then allowBreak false

/-- Whether the last token is the star of a generator. -/
def afterStar : Writing Bool := do
  let s ← get
  return s.frame.last.text == "*" &&
    (["function", "yield"].contains s.lastLast ||
      (s.frame.mode = .object && ["\x7b", ","].contains s.lastLast))

/-- The space between the name of a function and its parameters. -/
def spaceAfterName : Writing Unit := do
  let s ← get
  spaced false
  if s.options.spaceAfterNamed then
    match s.done.drop 1 with
    | [] => pure ()
    | two :: rest =>
      let three := rest.headD .first
      if two.isReserved ["async", "function"] ||
          (two.text == "*" && three.isReserved ["async", "function"]) then spaced true
      else if s.frame.mode = .object then
        if two.text == "\x7b" || two.text == "," ||
            (two.text == "*" && (three.text == "\x7b" || three.text == ",")) then spaced true

/-- What comes before a parenthesis that opens, and the mode of what is inside. -/
def beforeParen : Writing Mode := do
  let s ← get
  let t := s.frame.last
  let mut mode := Mode.expression
  if t.kind = .reserved then
    if t.text == "for" then
      spaced s.options.spaceBeforeCondition
      mode := .forHead
    else if ["if", "while", "switch"].contains t.text then
      spaced s.options.spaceBeforeCondition
      mode := .condition
    else if ["await", "async"].contains s.frame.lastWord then spaced true
    else if t.text == "import" && s.current.gap.blanks.isEmpty then spaced false
    else if lineStarters.contains t.text || t.text == "catch" then spaced true
  else if t.kind = .equals || t.kind = .operator then allowBreakInside
  else if t.kind = .word then spaceAfterName
  else allowBreak false
  let t ← last
  if (t.kind = .reserved && ["function", "typeof"].contains (← frame).lastWord) || (← afterStar) then
    spaced s.options.spaceAfterAnonymous
  return mode

def beforeBracket : Writing Unit := do
  let s ← get
  let t := s.frame.last
  if s.frame.mode = .array then
    if t.text == "[" || (t.text == "," && (s.lastLast == "]" || s.lastLast == "\x7d")) then
      if !s.options.keepArrayIndentation then newLine false false
  let t ← last
  if !([Kind.openExpr, .closeExpr, .word, .operator, .dot].contains t.kind) then spaced true

/-- A parenthesis or bracket that opens. -/
def openExpr : Writing Unit := do
  if !(← openStatement) then lead false
  let o ← options
  let t ← last
  let bracket := (← get).current.text == "["
  if bracket && (t.kind = .word || t.text == ")") then
    if t.isReserved lineStarters then spaced true
    printToken
    openFrame .expression
    indent
    if o.spaceInParens then spaced true
  else
    let mode ← if bracket then do beforeBracket; pure Mode.array else beforeParen
    let t ← last
    if t.text == ";" || t.kind = .openBlock then newLine false false
    else if [Kind.closeExpr, .openExpr, .closeBlock, .comma].contains t.kind || t.text == "." then
      allowBreak (0 < (← get).current.gap.breaks)
    printToken
    openFrame mode
    if o.spaceInParens then spaced true
    indent

/-- A parenthesis or bracket that closes. -/
def closeExpr : Writing Unit := do
  closeStatements
  lead false
  let o ← options
  if (← frame).multiline then
    allowBreak ((← get).current.text == "]" && (← frame).mode = .array && !o.keepArrayIndentation)
  if o.spaceInParens then
    if (← last).kind = .openExpr && !o.spaceInEmptyParens then
      spaced false
      withPage fun p => p.trim false
    else spaced true
  outdent
  printToken
  closeFrame
  outdentFrame (← get).former
  if (← frame).inDoWhile && (← get).former.mode = .condition then
    modify fun s => { s with former := { s.former with mode := .expression } }
    withFrame fun f => { f with inDo := false, inDoWhile := false }

/-- Whether a brace that opens begins an object, a block, or whatever the token before says. -/
def blockMode : Writing Mode := do
  let s ← get
  let f := s.frame
  if (f.lastWord == "switch" && f.last.kind = .closeExpr) || f.labelled then return .block
  let looksLikeObject := match s.ahead with
    | one :: two :: _ =>
      ([":", ","].contains two.text && [Kind.string, .word, .reserved].contains one.kind) ||
        (["get", "set", "..."].contains one.text && [Kind.word, .reserved].contains two.kind)
    | _ => false
  if looksLikeObject then
    return if ["class", "interface"].contains s.lastLast then .block else .object
  if f.last.kind = .operator && f.last.text == "=>" then return .block
  if [Kind.equals, .openExpr, .comma, .operator].contains f.last.kind ||
      f.last.isReserved ["return", "throw", "import", "default"] then return .object
  return .block

/-- What comes before a brace that opens. -/
def beforeBrace (empty : Bool) : Writing Unit := do
  let s ← get
  let o := s.options
  let t := s.frame.last
  if o.braceStyle = .expand || (o.braceStyle = .asWritten && 0 < s.current.gap.breaks) then
    let emptyFunction := empty && s.frame.lastWord == "function" && t.kind = .closeExpr
    if t.kind != .operator && (emptyFunction || t.kind = .equals ||
        (t.isReserved spacedWords && t.text != "else")) then spaced true
    else newLine false true
  else if s.former.mode = .array && (t.kind = .openExpr || t.kind = .comma) then
    if t.kind = .comma then spaced true
  else if t.kind != .operator && t.kind != .openExpr then
    if t.kind = .openBlock then newLine false false else spaced true

def openBlock : Writing Unit := do
  lead false
  let f ← frame
  let inSwitch := f.lastWord == "switch" && f.last.kind = .closeExpr
  openFrame (← blockMode)
  if inSwitch then withFrame fun f => { f with inSwitch := true }
  let empty := (← next?).any fun t => t.comments.isEmpty && t.text == "\x7d"
  beforeBrace empty
  printToken
  indent
  if !empty then newLine false false

def closeBlock : Writing Unit := do
  lead false
  closeStatements
  if (← last).kind != .openBlock then newLine false false
  closeFrame
  printToken

/-- Where a reserved word may be a name, takes it for one. -/
def settleWord : Writing Unit := do
  let s ← get
  let c := s.current
  let next := (s.ahead.head?.map Token.text).getD ""
  let isName :=
    if ["set", "get"].contains c.text && s.frame.mode != .object then true
    else if c.text == "import" && ["(", "."].contains next then true
    else if ["as", "from"].contains c.text && !s.frame.inImport then true
    else s.frame.mode = .object && next == ":"
  if c.kind = .reserved && isName then set { s with current := { c with kind := .word } }

/-- What comes before a word, apart from special cases. -/
inductive Before where
  | nothing
  | space
  | line
deriving DecidableEq

/-- The word `function`.  An empty line goes before a function that begins a line. -/
def functionWord : Writing Unit := do
  let s ← get
  let t := s.frame.last
  let opened := ["(", "[", "\x7b", ":", "=", ","].contains t.text || t.kind = .operator
  if t.text == "\x7d" || t.text == ";" || (s.page.atStart && !opened) then
    if !s.page.afterBlank && s.current.comments.isEmpty then
      newLine false false
      newLine true false
  let s ← get
  let t := s.frame.last
  if t.kind = .reserved || t.kind = .word then
    if t.isReserved ["get", "set", "new", "export"] || t.isReserved unbreakable ||
        (t.isReserved ["default"] && s.lastLast == "export") || t.text == "declare" then spaced true
    else newLine false false
  else if t.kind = .operator || t.text == "=" then spaced true
  else if !s.frame.multiline && (s.frame.mode.isExpr || s.frame.mode = .array) then pure ()
  else newLine false false
  printToken
  withFrame fun f => { f with lastWord := "function" }

/-- What the token before a word asks for. -/
def beforeWord : Writing Before := do
  let s ← get
  let f := s.frame
  let t := f.last
  let c := s.current
  let mut before := Before.nothing
  if t.kind = .closeBlock then
    if !c.isReserved ["else", "catch", "finally", "from"] then before := .line
    else if s.options.braceStyle = .expand || s.options.braceStyle = .endExpand ||
        (s.options.braceStyle = .asWritten && 0 < c.gap.breaks) then before := .line
    else
      before := .space
      spaced true
  else if t.kind = .semicolon && f.mode = .block then before := .line
  else if t.kind = .semicolon && f.mode.isExpr then before := .space
  else if t.kind = .string then before := .line
  else if t.kind = .reserved || t.kind = .word || (← afterStar) then before := .space
  else if t.kind = .openBlock then before := .line
  else if t.kind = .closeExpr then
    spaced true
    before := .line
  if c.isReserved lineStarters && t.text != ")" then
    before := if t.text == "export" then .space else .line
  return before

/-- The words `else`, `catch` and `finally`. -/
def followUp : Writing Unit := do
  let s ← get
  let o := s.options
  if !(s.frame.last.kind = .closeBlock && s.former.mode = .block) || o.braceStyle = .expand ||
      o.braceStyle = .endExpand || (o.braceStyle = .asWritten && 0 < s.current.gap.breaks) then
    newLine false false
  else
    withPage fun p => p.trim true
    if (← get).page.current.last? != some ['\x7d'] then newLine false false
    spaced true

/-- A word that begins a line, where the words before it allow that. -/
def lineWord : Writing Unit := do
  let s ← get
  let t := s.frame.last
  let c := s.current
  let declares := c.isReserved ["var", "let", "const"]
  if t.isReserved spacedWords then spaced true
  else if t.text == "declare" && declares then spaced true
  else if t.kind != .closeExpr then
    if (t.kind != .openExpr || !declares) && t.text != ":" then
      if c.isReserved ["if"] && t.text == "else" then spaced true else newLine false false
  else if c.isReserved lineStarters && t.text != ")" then newLine false false

/-- A word that is neither a label nor special otherwise. -/
def plainWord : Writing Unit := do
  let before ← beforeWord
  let s ← get
  if s.current.isReserved ["else", "catch", "finally"] then followUp
  else if before = .line then lineWord
  else if s.frame.multiline && s.frame.mode = .array && s.frame.last.text == "," &&
      s.lastLast == "\x7d" then newLine false false
  else if before = .space then spaced true
  let p ← previous
  if p.kind = .word || p.kind = .reserved then spaced true
  printToken
  let c := (← get).current
  withFrame fun f => { f with lastWord := c.text }
  if c.kind = .reserved then
    match c.text with
    | "do" => withFrame fun f => { f with inDo := true }
    | "if" => withFrame fun f => { f with inIf := true }
    | "import" => withFrame fun f => { f with inImport := true }
    | "from" => withFrame fun f => { f with inImport := false }
    | _ => pure ()

/-- The comments and line breaks before a word. -/
def beginWord : Writing Unit := do
  if ← openStatement then
    let s ← get
    if s.frame.last.isReserved ["var", "let", "const"] && s.current.kind = .word then
      withFrame fun f => { f with declares := true }
  else
    let s ← get
    let t := s.frame.last
    let breaks := 0 < s.current.gap.breaks && !s.frame.mode.isExpr &&
      (t.kind != .operator || t.text == "--" || t.text == "++") && t.kind != .equals &&
      (s.options.keepBreaks || !t.isReserved ["var", "let", "const", "set", "get"])
    lead false
    if breaks then newLine false false

/-- Closes an `if` that no `else` follows. -/
def settleIf : Writing Unit := do
  let f ← frame
  if f.inIf then
    if !f.inElse && (← currentIs ["else"]) then withFrame fun f => { f with inElse := true }
    else
      closeStatements
      withFrame fun f => { f with inIf := false }

def label : Writing Unit := do
  newLine false false
  let f ← frame
  if !f.labelBlock && (f.labelled || (← options).flushLabels) then outdent
  withFrame fun f => { f with labelled := false }
  printToken
  withFrame fun f => { f with inLabel := true }

def word : Writing Unit := do
  settleWord
  beginWord
  let f ← frame
  if f.inDo && !f.inDoWhile then
    if ← currentIs ["while"] then
      spaced true
      printToken
      spaced true
      withFrame fun f => { f with inDoWhile := true }
      return
    newLine false false
    withFrame fun f => { f with inDo := false }
  settleIf
  if (← frame).inSwitch && (← currentIs ["case", "default"]) then label
  else
    if [Kind.comma, .openExpr, .equals, .operator].contains (← last).kind then allowBreakInside
    if ← currentIs ["function"] then functionWord else plainWord

/-- A semicolon ends the statements that it can end. -/
def semicolon : Writing Unit := do
  if ← openStatement then spaced false else lead false
  closeComplete
  withFrame fun f => { f with inImport := false }
  printToken

/-- A string.  A template string right after a name or a parenthesis belongs to it. -/
def string : Writing Unit := do
  let s ← get
  let c := s.current
  let template := c.text.toList.head? == some '\x60'
  let before ← previous
  if template && c.gap.breaks = 0 && c.gap.blanks.isEmpty &&
      (s.frame.last.kind = .word || before.text == ")") then pure ()
  else if ← openStatement then spaced true
  else
    lead false
    let t ← last
    if t.kind = .reserved || t.kind = .word then spaced true
    else if [Kind.comma, .openExpr, .equals, .operator].contains t.kind then allowBreakInside
    else if template && t.kind = .closeExpr && ["]", ")"].contains before.text && c.gap.breaks = 0 then
      spaced true
    else newLine false false
  printToken

def equals : Writing Unit := do
  if !(← openStatement) then lead false
  withFrame fun f => if f.declares then { f with assigns := true } else f
  spaced true
  printToken
  spaced true

/-- A comma.  In declarations with values and in objects a line follows. -/
def comma : Writing Unit := do
  lead true
  printToken
  spaced true
  let f ← frame
  let o ← options
  let around ← parent
  if f.declares then
    let assigns := f.assigns && !around.mode.isExpr
    withFrame fun f => { f with assigns := false }
    if assigns then newLine false true
    else if o.commaFirst then allowBreak false
  else if f.mode = .object || (f.mode = .statement && around.mode = .object) then
    if f.mode = .statement then closeFrame
    newLine false false
  else if o.commaFirst then allowBreak false

def labelColon : Writing Unit := do
  printToken
  let block := (← next?).any fun t => t.kind = .openBlock
  withFrame fun f => { f with inLabel := false, labelled := true }
  if !block then
    indent
    newLine false false
    withFrame fun f => { f with labelBlock := false }
  else
    spaced true
    withFrame fun f => { f with labelBlock := true }

/-- An operator at which lines may be divided, by the place that the options give it.  `other` holds
of a colon that belongs to no conditional expression. -/
def divisible (other : Bool) : Writing Unit := do
  let o ← options
  match o.operatorPlace with
  | .beforeBreak =>
    spaced (!other)
    printToken
    if !other then allowBreak false
    spaced true
  | .afterBreak =>
    spaced true
    if !other then
      if (← next?).any fun t => 0 < t.gap.breaks then newLine false true
      else allowBreak false
    else spaced false
    printToken
    spaced true
  | .asWritten =>
    if !other then allowBreak false
    spaced (!((← atStart) || other))
    printToken
    spaced true

/-- An operator before its operand; `++` and `--` also after it.  Answers whether spaces come before and
after. -/
def sign : Writing (Bool × Bool) := do
  let t ← last
  if t.kind = .comma || t.kind = .openExpr then allowBreak false
  let s ← get
  let c := s.current
  let step := c.text == "--" || c.text == "++"
  if 0 < c.gap.breaks && step then newLine false true
  let s ← get
  let f := s.frame
  let t := f.last
  let inFor := t.text == ";" && f.mode.isExpr
  let clash := ["--", "-", "++", "+"]
  let before :=
    if t.kind = .reserved then true
    else if t.kind = .closeExpr then !(t.text == "]" && step)
    else if t.kind = .operator then clash.contains c.text && clash.contains t.text
    else inFor
  let after := t.kind = .operator && ["-", "+"].contains c.text && ["--", "++"].contains t.text
  if (f.mode = .block || f.mode = .statement) && ["\x7b", ";"].contains t.text then newLine false false
  return (before, after)

def operator : Writing Unit := do
  let s ← get
  let t := s.frame.last
  let c := s.current
  let star := c.text == "*" && (t.isReserved ["function", "yield"] ||
    [Kind.openBlock, .comma, .closeBlock, .semicolon].contains t.kind)
  let unary := ["+", "-"].contains c.text &&
    ([Kind.openBlock, .openExpr, .equals, .operator].contains t.kind ||
      lineStarters.contains t.text || t.text == ",")
  if !(← openStatement) then lead (!star)
  let t ← last
  if (c.text == "*" && t.kind = .dot) || c.text == "::" then
    printToken
    return
  let o ← options
  if t.kind = .operator && o.operatorPlace != .afterBreak then allowBreak false
  if c.text == ":" && (← frame).inLabel then
    labelColon
    return
  let waiting := (← frame).ternaries
  let inTernary := c.text == ":" && 0 < waiting
  let other := c.text == ":" && waiting = 0
  if inTernary then withFrame fun f => { f with ternaries := f.ternaries - 1 }
  if c.text == "?" then withFrame fun f => { f with ternaries := f.ternaries + 1 }
  if !unary && !star && o.keepBreaks && divisibleOperators.contains c.text then
    divisible other
    return
  let (before, after) ←
    if star then do
      allowBreak false
      let after := (← next?).any fun t => t.kind = .word || t.kind = .reserved
      pure (false, after)
    else if c.text == "..." then do
      allowBreak false
      pure (decide ((← last).kind = .openBlock), false)
    else if ["--", "++", "!", "~"].contains c.text || unary then sign
    else pure (!other, true)
  if before then spaced true
  printToken
  if after then spaced true

def dot : Writing Unit := do
  if !(← openStatement) then lead true
  let o ← options
  let t ← last
  if t.isReserved spacedWords then spaced false
  else allowBreak (t.text == ")" && o.breakChained)
  if o.unindentChained && (← atStart) then outdent
  printToken

/-- The end of the script. -/
def stop : Writing Unit := do
  closeStatements
  lead false

def token : Writing Unit := do
  match (← get).current.kind with
  | .openExpr => openExpr
  | .closeExpr => closeExpr
  | .openBlock => openBlock
  | .closeBlock => closeBlock
  | .word | .reserved => word
  | .semicolon => semicolon
  | .string => string
  | .equals => equals
  | .operator => operator
  | .comma => comma
  | .dot => dot
  | .stop => stop
  | .start => pure ()

/-- Writes tokens. -/
def all : List Token → Writing Unit
  | [] => pure ()
  | t :: rest => do
    modify fun s => { s with current := t, ahead := rest }
    token
    modify fun s =>
      { s with
        lastLast := s.frame.last.text
        frame := { s.frame with last := s.current }
        done := s.current :: s.done }
    all rest

end Writing

def lineEndOf : List Char → List Char
  | [] => ['\n']
  | '\r' :: '\n' :: _ => ['\r', '\n']
  | c :: rest => if isBreak c then [c] else lineEndOf rest

/-- Lays out a script.  One that is percent-encoded is decoded first. -/
def layout (o : Options) (text : List Char) : Outcome (List Char) := do
  if o.disabled then return text
  let found ← tokens o (if isPercentEncoded text then percentDecode text else text)
  let page := (Page.ofRuling (.ofOptions o)).setIndent { steps := 0 }
  let base : Frame := { mode := .block, startLine := 1 }
  let (_, s) := (Writing.all found).run
    { options := o, page, frame := base, former := { mode := .block } }
  s.page.render o.endWithBreak (o.lineEnd.getD (lineEndOf text))

end TemplateTidy.Code.Script
