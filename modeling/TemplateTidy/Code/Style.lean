import TemplateTidy.Code.Cursor
import TemplateTidy.Code.Page
import TemplateTidy.Text.Blank

/-! # Layout of style sheets

`Style.layout` writes a style sheet with one declaration a line and the contents of blocks indented.
It reads one character or one unit (a comment, a string, an address) at a time, and `Sheet` holds what
it remembers between them. -/

namespace TemplateTidy.Code.Style

open Text

/-- A style sheet that is being laid out. -/
structure Sheet where
  options : Options
  page : Page
  cursor : Cursor
  /-- The steps of indentation. -/
  depth : Nat := 0
  /-- The open rules that hold rules. -/
  groups : Nat := 0
  /-- The open parentheses. -/
  parens : Nat := 0
  inRule : Bool := false
  inValue : Bool := false
  /-- Between the name of a group of rules and its block. -/
  inGroupHead : Bool := false
  inExtend : Bool := false
  inImport : Bool := false
  /-- The last unit; empty at the beginning. -/
  last : List Char := []

/-- At-rules that hold rules, with an at sign in front. -/
def groupRules : List String :=
  ["@page", "@font-face", "@keyframes", "@media", "@supports", "@document"]

/-- Those whose heads are conditions. -/
def conditionRules : List String :=
  ["@media", "@supports", "@document"]

namespace Sheet

def indent (s : Sheet) : Sheet :=
  { s with depth := s.depth + 1 }

def outdent (s : Sheet) : Sheet :=
  { s with depth := s.depth - 1 }

/-- Asks for a space before the next piece if `b` says so. -/
def space (s : Sheet) (b : Bool) : Sheet :=
  if b then { s with page := { s.page with spaced := true } } else s

def newLine (s : Sheet) (force : Bool) : Sheet :=
  { s with page := s.page.breakLine force }

/-- Writes a piece. -/
def print (s : Sheet) (piece : List Char) : Sheet :=
  { s with page := (s.page.setIndent { steps := s.depth }).add piece false }

def skipBlanks (s : Sheet) : Sheet :=
  { s with cursor := (s.cursor.takeWhile isBlank).2 }

/-- Skips blanks and keeps their line breaks: all up to the limit, and at least one. -/
def keepBreaks (s : Sheet) : Sheet :=
  let (blanks, cursor) := s.cursor.takeWhile isBlank
  let found := blanks.count '\n'
  let kept := if found = 0 then 0 else max 1 (min found s.options.maxBreaks.toNat)
  (List.range kept).foldl (fun s _ => s.newLine true) { s with cursor }

/-- The number of characters up to the first one that `stops` names, or to a line feed; a backslash
takes the next character along. -/
def unitLength (stops : Char → Bool) : List Char → Outcome Nat
  | [] => .ok 0
  | '\\' :: [] => .error .wrongType
  | '\\' :: _ :: rest => return (← unitLength stops rest) + 2
  | c :: rest => if stops c || c == '\n' then .ok 1 else return (← unitLength stops rest) + 1

/-- Reads up to the first character that `stops` names, and that one. -/
def takeUnit (s : Sheet) (stops : Char → Bool) : Outcome (List Char × Sheet) := do
  let n ← unitLength stops s.cursor.future
  return (s.cursor.future.take n, { s with cursor := s.cursor.skip n })

/-- Writes `c` and the unit up to the first character that `stops` names. -/
def printUnit (s : Sheet) (c : Char) (stops : Char → Bool) : Outcome Sheet := do
  let (unit, s) ← s.takeUnit stops
  return s.print (c :: unit)

/-- The length of a block comment: to its end mark, or else to the end of the text but for a last line
feed. -/
def commentLength (text : List Char) : Nat :=
  match Cursor.reach? ['*', '/'] (text.drop 2) with
  | some n => n + 2
  | none => if text.getLast? == some '\n' then text.length - 1 else text.length

/-- A block comment stands on lines of its own. -/
def blockComment (s : Sheet) : Sheet :=
  let s := s.newLine false
  let cursor := s.cursor.back
  let n := commentLength cursor.future
  let comment := cursor.future.take n
  let cursor := cursor.skip n
  let (ignored, cursor) :=
    if directs (directivesOf comment) "ignore" "start" then cursor.takeIgnored else ([], cursor)
  (({ s with cursor }.print (comment ++ ignored)).keepBreaks).newLine false

/-- A comment to the end of the line stands after what is on the line. -/
def lineComment (s : Sheet) : Sheet :=
  let s := s.space true
  let (comment, cursor) := s.cursor.back.takeWhile fun c =>
    c != '\n' && c != '\r' && c != '\u2028' && c != '\u2029'
  ({ s with cursor }.print comment).keepBreaks

/-- A character that ends the name of an at-rule. -/
def endsName (c : Char) : Bool :=
  ": ,;\x7b\x7d()[]/='\"".toList.contains c

/-- A name without the blank at its end; a name has a character at least. -/
def trimName (name : List Char) : Outcome (List Char) :=
  match name.getLast? with
  | none => .error .noCharacter
  | some c => .ok (if isBlank c then name.dropLast else name)

/-- The name of an at-rule or of a variable, after the at sign.  A name before a colon or a space is
written at once. -/
def atName (s : Sheet) : Outcome Sheet := do
  let head := s.cursor.future.takeWhile fun c => !endsName c
  let seen := s.cursor.future.take (head.length + 1)
  let (name, s) ← match seen.getLast? with
    | none => throw .noCharacter
    | some c =>
      if c == ':' || c == ' ' then do
        let (unit, s) ← s.takeUnit fun c => c == ':' || c == ' '
        let name ← trimName unit
        pure (name, (s.print name).space true)
      else pure (seen, s)
  let name ← trimName name
  let word := String.ofList name
  let s := { s with inExtend := s.inExtend || word == "extend",
                    inImport := s.inImport || word == "import" }
  if groupRules.contains word then
    return { s with groups := s.groups + 1,
                    inGroupHead := s.inGroupHead || conditionRules.contains word }
  else if !s.inRule && s.parens == 0 && name.getLast? == some ':' then
    return { s with inValue := true }.indent
  else return s

/-- An at sign: of a variable in braces, or of a rule. -/
def atSign (s : Sheet) (spaced : Bool) : Outcome Sheet :=
  let s := s.space spaced
  if s.cursor.peek? == some '\x7b' then s.printUnit '@' (· == '\x7d')
  else (s.print ['@']).atName

def endValue (s : Sheet) : Sheet :=
  if s.inValue then { s with inValue := false }.outdent else s

/-- A brace that opens a block.  An empty line goes above the rule, unless it is the first one of a
block. -/
def openBlock (s : Sheet) : Sheet :=
  let s := s.endValue
  let inRule : Bool :=
    decide (if s.inGroupHead then s.groups ≤ s.depth else s.groups ≤ s.depth + 1)
  let s := { s with inGroupHead := false, inRule }
  let apart := match s.page.above.head? with
    | some l => !l.isEmpty && l.last? != some ['\x7b']
    | none => false
  let s := if inRule && apart then { s with page := s.page.separate '/' [','] } else s
  let s := s.space true
  let s :=
    if s.options.braceStyle = .expand then
      let s := ((s.newLine false).print ['\x7b']).indent
      { s with page := s.page.setIndent { steps := s.depth } }
    else s.indent.print ['\x7b']
  s.keepBreaks.newLine false

/-- A brace that closes a block.  An empty line goes below, unless another one closes. -/
def closeBlock (s : Sheet) (previous : List Char) : Sheet :=
  let s := s.outdent.newLine false
  let s := if previous == ['\x7b'] then { s with page := s.page.trim true } else s
  let s := { s with inExtend := false, inImport := false }.endValue
  let s := { s.print ['\x7d'] with inRule := false, groups := s.groups - 1 }
  let s := s.keepBreaks.newLine false
  if !s.page.afterBlank && s.cursor.peek? != some '\x7d' then s.newLine true else s

/-- Whether a block opens before the declaration ends, so that a colon belongs to a selector. -/
def opensBlock (open_ : Nat) : List Char → Bool
  | [] => false
  | c :: rest =>
    if c == '\x7b' then true
    else if c == '(' then opensBlock (open_ + 1) rest
    else if c == ')' then if open_ = 0 then false else opensBlock (open_ - 1) rest
    else if c == ';' || c == '\x7d' then false
    else opensBlock open_ rest

/-- A colon: between a property and its value, or in a selector. -/
def colon (s : Sheet) : Sheet :=
  if (s.inRule || s.inGroupHead) && !(s.cursor.follows "&" || opensBlock 0 (s.cursor.future.drop 1)) &&
      !s.cursor.follows "(" && !s.inExtend && s.parens == 0 then
    let s := s.print [':']
    if s.inValue then s else ({ s with inValue := true }.space true).keepBreaks.indent
  else
    let s := s.space (s.cursor.follows " ")
    if s.cursor.peek? == some ':' then { s with cursor := s.cursor.skip 1 }.print [':', ':']
    else s.print [':']

/-- A semicolon ends a line, unless it stands in parentheses. -/
def semicolon (s : Sheet) : Sheet :=
  if s.parens == 0 then
    let s := { s.endValue with inExtend := false, inImport := false }
    let s := (s.print [';']).keepBreaks
    if s.cursor.peek? != some '/' then s.newLine false else s
  else ((s.print [';']).keepBreaks).space true

def leaveParen (s : Sheet) : Sheet :=
  if s.parens = 0 then s else { s with parens := s.parens - 1 }.outdent

/-- An opening parenthesis.  An address without quotes is one unit. -/
def openParen (s : Sheet) (spaced : Bool) : Outcome Sheet := do
  if s.cursor.follows "url" then
    let s := (s.print ['(']).skipBlanks
    let s := { s with parens := s.parens + 1 }.indent
    match s.cursor.peek? with
    | none => return s
    | some c =>
      if c == ')' || c == '"' || c == '\'' then return s
      return (← { s with cursor := s.cursor.skip 1 }.printUnit c (· == ')')).leaveParen
  else
    let s := ((s.space spaced).print ['(']).skipBlanks
    return { s with parens := s.parens + 1 }.indent

/-- A comma ends a line between selectors. -/
def comma (s : Sheet) : Sheet :=
  let s := (s.print [',']).keepBreaks
  if !s.inValue && s.parens == 0 && !s.inImport && !s.inExtend then s.newLine false
  else s.space true

/-- Lays out the unit that begins with `c`, which has been read; `spaced` says whether blanks stood
before it, and `previous` is the unit before. -/
def unit (s : Sheet) (c : Char) (spaced : Bool) (previous : List Char) : Outcome Sheet :=
  let next := s.cursor.peek?
  match c with
  | '\\' =>
    let escaped := s.cursor.future.take 1
    .ok (({ s with cursor := s.cursor.skip 1 }.space spaced).print ('\\' :: escaped))
  | '/' =>
    if next == some '*' then .ok s.blockComment
    else if next == some '/' then .ok s.lineComment
    else .ok ((s.space spaced).print ['/'])
  | '@' => s.atSign spaced
  | '#' =>
    if next == some '\x7b' then (s.space spaced).printUnit '#' (· == '\x7d')
    else .ok ((s.space spaced).print ['#'])
  | '\x7b' => .ok s.openBlock
  | '\x7d' => .ok (s.closeBlock previous)
  | ':' => .ok s.colon
  | '"' => return (← (s.space spaced).printUnit '"' (· == '"')).keepBreaks
  | '\'' => return (← (s.space spaced).printUnit '\'' (· == '\'')).keepBreaks
  | ';' => .ok s.semicolon
  | '(' => s.openParen spaced
  | ')' => .ok (s.leaveParen.print [')'])
  | ',' => .ok s.comma
  | ']' => .ok (s.print [']'])
  | '=' => .ok (s.skipBlanks.print ['='])
  | '!' =>
    if s.cursor.follows "\\" then .ok ((s.space spaced).print ['!'])
    else .ok ((s.print [' ']).print ['!'])
  | _ =>
    if (c == '>' || c == '+' || c == '~') && !s.inValue && s.parens == 0 then
      .ok (s.print [c]).skipBlanks
    else .ok ((s.space spaced).print [c])

/-- The text of a unit that begins with `c`, as the next unit sees it. -/
def seen (s : Sheet) (c : Char) : List Char :=
  if c == '\\' then c :: s.cursor.future.take 1 else [c]

/-- Lays out at most `fuel` units. -/
def run : (fuel : Nat) → Sheet → Outcome Sheet
  | 0, s => .ok s
  | fuel + 1, s => do
    let (blanks, cursor) := s.cursor.takeWhile isBlank
    match cursor.peek? with
    | none => return s
    | some c =>
      let s' := { s with cursor := cursor.skip 1 }
      let s' ← { s' with last := s'.seen c }.unit c (!blanks.isEmpty) s.last
      run fuel s'

end Sheet

def lineEndOf : List Char → List Char
  | [] => ['\n']
  | '\r' :: '\n' :: _ => ['\r', '\n']
  | c :: rest => if c == '\r' || c == '\n' then [c] else lineEndOf rest

def layout (o : Options) (text : List Char) : Outcome (List Char) := do
  if o.disabled then return text
  let lines := unifyLineEnds text
  let sheet : Sheet :=
    { options := o, page := .ofRuling (.ofOptions o), cursor := .ofText lines }
  let sheet ← sheet.run (lines.length + 1)
  sheet.page.render o.endWithBreak (o.lineEnd.getD (lineEndOf text))

end TemplateTidy.Code.Style
