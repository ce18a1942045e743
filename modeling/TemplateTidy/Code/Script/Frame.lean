import TemplateTidy.Code.Page
import TemplateTidy.Code.Script.Lexer

/-! # Writing scripts

A script is written with a stack of frames, one for each open block, expression and statement.
`Scribe` holds the page, the frames and the tokens around the current one; the functions here print
tokens, begin lines and open and close frames. -/

namespace TemplateTidy.Code.Script

open Text

/-- What a frame stands for. -/
inductive Mode where
  | block
  | statement
  | object
  | array
  /-- The head of a `for`. -/
  | forHead
  /-- The head of an `if`, a `while` or a `switch`. -/
  | condition
  | expression
deriving DecidableEq, Repr

def Mode.isExpr : Mode → Bool
  | .expression | .forHead | .condition => true
  | _ => false

structure Frame where
  mode : Mode
  /-- The last token that was written while the frame was the innermost one. -/
  last : Token := { kind := .openBlock, text := "" }
  /-- The last word. -/
  lastWord : String := ""
  /-- The statement declares names. -/
  declares : Bool := false
  /-- The statement has given a declared name a value since the last comma. -/
  assigns : Bool := false
  /-- The frame goes over more than one line. -/
  multiline : Bool := false
  inIf : Bool := false
  inElse : Bool := false
  inDo : Bool := false
  inDoWhile : Bool := false
  inImport : Bool := false
  /-- Between a label and its colon. -/
  inLabel : Bool := false
  inSwitch : Bool := false
  /-- After a label and its colon. -/
  labelled : Bool := false
  /-- The label is followed by a block. -/
  labelBlock : Bool := false
  /-- The steps of indentation. -/
  level : Nat := 0
  /-- Columns beside the steps. -/
  columns : Nat := 0
  /-- The steps of indentation of the line that the frame is on. -/
  lineLevel : Nat := 0
  /-- The number of lines when the frame was opened. -/
  startLine : Nat := 0
  /-- The conditional expressions that wait for their colon. -/
  ternaries : Nat := 0

/-- A script that is being written. -/
structure Scribe where
  options : Options
  page : Page
  frame : Frame
  /-- The frames around, innermost first. -/
  outer : List Frame := []
  /-- The frame that was left or covered last. -/
  former : Frame
  /-- The text of the token before the last one. -/
  lastLast : String := ""
  /-- The token that is being written. -/
  current : Token := .first
  /-- The tokens before it, nearest first. -/
  done : List Token := []
  /-- The tokens after it. -/
  ahead : List Token := []

abbrev Writing := StateM Scribe

/-- What is printed: its text and the gap before it. -/
structure Printed where
  text : List Char
  gap : Gap
  /-- It comes right after a comma. -/
  afterComma : Bool := false

namespace Writing

def options : Writing Options := return (← get).options

def frame : Writing Frame := return (← get).frame

/-- The token before the current one, as the innermost frame remembers it. -/
def last : Writing Token := return (← get).frame.last

/-- The token after the current one. -/
def next? : Writing (Option Token) := return (← get).ahead.head?

/-- The token before the current one. -/
def previous : Writing Token := return (← get).done.headD .first

def withFrame (f : Frame → Frame) : Writing Unit :=
  modify fun s => { s with frame := f s.frame }

def withPage (f : Page → Page) : Writing Unit :=
  modify fun s => { s with page := f s.page }

/-- Says whether a space comes before the next piece. -/
def spaced (b : Bool) : Writing Unit :=
  withPage fun p => { p with spaced := b }

/-- Whether the current line has no pieces. -/
def atStart : Writing Bool := return (← get).page.atStart

/-- The frame around the innermost one. -/
def parent : Writing Frame := return (← get).outer.headD { mode := .block }

/-- Sets the indentation to that of the innermost frame. -/
def setIndent : Writing Unit :=
  modify fun s =>
    { s with page := s.page.setIndent { steps := s.frame.level, columns := s.frame.columns } }

def indent : Writing Unit := do
  withFrame fun f => { f with level := f.level + 1 }
  setIndent

/-- Takes a step of indentation away, but not below the frame around. -/
def outdent : Writing Unit := do
  let around := (← parent).level
  withFrame fun f => if around < f.level then { f with level := f.level - 1 } else f
  setIndent

def openFrame (mode : Mode) : Writing Unit := do
  modify fun s =>
    let base := s.frame
    let level := if s.page.atStart then base.level else max base.level base.lineLevel
    { s with
      outer := base :: s.outer
      former := base
      frame := { mode, last := base.last, lastWord := base.lastWord, level, startLine := s.page.size } }
  setIndent

/-- Takes back the indentation of a frame that fits on its line. -/
def outdentFrame (frame : Frame) : Writing Unit :=
  if frame.multiline || frame.mode = .forHead || frame.mode = .condition then pure ()
  else withPage fun p => p.outdentFrom frame.startLine

def closeFrame : Writing Unit := do
  let s ← get
  match s.outer with
  | [] => pure ()
  | around :: outer =>
    set { s with former := s.frame, frame := around, outer }
    if s.frame.mode = .statement then outdentFrame s.frame
  setIndent

/-- Closes statements as long as `p` holds of the innermost frame; at most `fuel` ones. -/
def closeWhile (p : Frame → Bool) : (fuel : Nat) → Writing Unit
  | 0 => pure ()
  | fuel + 1 => do
    let f ← frame
    if f.mode = .statement && p f then
      closeFrame
      closeWhile p fuel

def closeStatements : Writing Unit := do
  closeWhile (fun _ => true) ((← get).outer.length + 1)

/-- Closes the statements that are complete: not an `if` before its `else`, nor a `do` before its
condition. -/
def closeComplete : Writing Unit := do
  let elseAhead := (← next?).any fun t => t.isReserved ["else"]
  closeWhile (fun f => !(f.inIf && elseAhead) && !f.inDo) ((← get).outer.length + 1)

/-- Begins a line.  Statements that the last token completes are closed, unless `keep` holds. -/
def newLine (force keep : Bool) : Writing Unit := do
  let t ← last
  if !keep then
    if t.text != ";" && t.text != "," && t.text != "=" &&
        (t.kind != .operator || t.text == "--" || t.text == "++") then
      closeComplete
  let page := (← get).page
  if page.takesBreak force then
    withPage fun p => p.breakLine force
    withFrame fun f => { f with multiline := true }

/-- Indents the line that a piece begins.  In arrays whose indentation is kept, the blanks before the
piece stand for it. -/
def indentLine (t : Printed) : Writing Unit := do
  let s ← get
  if s.page.atStart then
    if s.options.keepArrayIndentation && 0 < t.gap.breaks &&
        (s.frame.mode = .array || t.text == ['[']) then
      withPage fun p =>
        { p with current := (p.current.setIndent p.ruling {}).push t.gap.blanks, spaced := false }
    else
      setIndent
      if !s.page.above.isEmpty then withFrame fun f => { f with lineLevel := f.level }

/-- Where lines begin with commas, takes the comma from the end of the line before. -/
def pullComma (t : Printed) : Writing Unit := do
  let page := (← get).page
  match page.above with
  | [] => pure ()
  | before :: above =>
    if before.last? == some [','] then
      if before.pop.isEmpty then
        let p := { page with above := before.pop.push [','] :: above }.trim true
        withPage fun _ => { p with current := p.current.pop }.trim false
      else
        withPage fun p => { p with above := before.pop :: above }
      indentLine t
      withPage fun p => { p.add [','] true with spaced := true }

def print (t : Printed) : Writing Unit := do
  let s ← get
  if s.page.raw then
    withPage fun p => p.addRaw t.gap.breaks t.gap.blanks t.text
  else
    if s.options.commaFirst && t.afterComma && s.page.atStart then pullComma t
    indentLine t
    let page := (← get).page
    withPage fun p => p.add t.text false
    if page.breaksAt t.text false then withFrame fun f => { f with multiline := true }

def printToken : Writing Unit := do
  let s ← get
  print { text := s.current.text.toList, gap := s.current.gap,
          afterComma := s.done.head?.any fun t => t.kind = .comma }

/-- Words after which a line may not end. -/
def unbreakable : List String :=
  ["async", "break", "continue", "return", "throw", "yield"]

def spacedWords : List String :=
  ["case", "return", "do", "if", "throw", "else", "await", "break", "continue", "async"]

/-- Keeps the line break before the current token, or begins a line if `force` holds, or else notes
that the line could be broken here. -/
def allowBreak (force : Bool) : Writing Unit := do
  let s ← get
  if s.page.atStart then return
  let t := s.frame.last
  let wanted := (s.options.keepBreaks && 0 < s.current.gap.breaks) || force
  let ends := divisibleOperators.contains t.text
  let begins := divisibleOperators.contains s.current.text
  let fits := (ends && s.options.operatorPlace != .afterBreak) || begins
  if wanted && (fits || !(ends || begins)) then newLine false true
  else if 0 < s.options.wrapWidth && !t.isReserved unbreakable then
    withPage Page.markBreak

/-- Keeps line breaks: all of them in arrays whose indentation is kept, elsewhere those that leave
empty lines, up to the limit. -/
def keepBreaks (breaks : Nat) (whole keep : Bool) : Writing Unit := do
  let o ← options
  if whole then
    for i in List.range breaks do newLine (0 < i) keep
  else
    let breaks := if o.maxBreaks != 0 && o.maxBreaks < breaks then o.maxBreaks.toNat else breaks
    if o.keepBreaks && 1 < breaks then
      for i in List.range breaks do newLine (0 < i) keep

/-- Whether the line breaks of the innermost frame are kept as they are. -/
def keepsArray : Writing Bool := do
  let s ← get
  return s.options.keepArrayIndentation && s.frame.mode = .array

/-- A block comment of more than one line.  Lines that begin with stars are aligned, lines that are
indented as far as the first one are indented anew, and others stay as they are. -/
def printLines (c : Comment) (keep : Bool) : Writing Unit := do
  newLine false keep
  match c.text.splitOn '\n' with
  | [] => pure ()
  | first :: rest =>
    print { text := first, gap := c.gap }
    newLine false keep
    if !rest.isEmpty then
      let starred := rest.all fun l => l.isEmpty || (stripLeft l).head? == some '*'
      let indented := rest.all fun l => c.gap.blanks.isPrefixOf l || (strip l).isEmpty
      if starred then withFrame fun f => { f with columns := 1 }
      for l in rest do
        if starred then print { text := stripLeft l, gap := c.gap }
        else if indented && c.gap.blanks.length < l.length then
          print { text := l.drop c.gap.blanks.length, gap := c.gap }
        else
          withPage fun p => { p with current := p.current.setIndent p.ruling {} }.add l true
        newLine false keep
      withFrame fun f => { f with columns := 0 }

def blockComment (c : Comment) (keep : Bool) : Writing Unit := do
  if (← get).page.raw then
    withPage fun p => p.addRaw c.gap.breaks c.gap.blanks c.text
    if directs c.directives "preserve" "end" then withPage fun p => { p with raw := false }
  else if !c.directives.isEmpty then
    newLine false keep
    print { text := c.text, gap := c.gap }
    if directs c.directives "preserve" "start" then withPage fun p => { p with raw := true }
    newLine false true
  else if !c.text.any isBreak && c.gap.breaks = 0 then
    spaced true
    print { text := c.text, gap := c.gap }
    spaced true
  else printLines c keep

def comment (c : Comment) (keep : Bool) : Writing Unit := do
  match c.kind with
  | .block => blockComment c keep
  | .line =>
    if 0 < c.gap.breaks then newLine false keep
    else withPage fun p => p.trim true
    spaced true
    print { text := c.text, gap := c.gap }
    newLine false keep
  | .stray =>
    print { text := c.text, gap := c.gap }
    if c.text.getLast? == some '\n' then newLine false keep

/-- The comments before the current token and the line breaks that are kept. -/
def lead (keep : Bool) : Writing Unit := do
  let t := (← get).current
  let whole ← keepsArray
  for c in t.comments do
    keepBreaks c.gap.breaks (← keepsArray) keep
    comment c keep
  keepBreaks t.gap.breaks whole keep

end Writing

end TemplateTidy.Code.Script
