import TemplateTidy.Code.Options

/-! # Pages of code

A `Page` takes the pieces of laid-out code one after the other and keeps them in lines.  A line knows
its indentation and where it could be broken; `Page.add` breaks a line that has become too wide at that
point.  `Page.render` writes the page. -/

namespace TemplateTidy.Code

open Text

/-- How the lines of a page are indented and how wide they may be. -/
structure Ruling where
  /-- The width of one step of indentation. -/
  size : Int
  /-- The text of one step of indentation. -/
  unit : List Char
  /-- What every indented line begins with. -/
  base : List Char
  /-- The width of a line, or 0 for any. -/
  wrapWidth : Int
  indentEmptyLines : Bool

def Ruling.ofOptions (o : Options) : Ruling where
  size := o.indentSize
  unit := o.indentUnit
  base := (List.replicate o.level.toNat o.indentUnit).flatten
  wrapWidth := o.wrapWidth
  indentEmptyLines := o.indentEmptyLines

/-- The indentation of a line: steps, or −1 for a line that begins at the margin, and columns. -/
structure Indent where
  steps : Int := -1
  columns : Nat := 0
deriving DecidableEq, Repr

def Ruling.width (r : Ruling) (i : Indent) : Int :=
  (if i.steps < 0 then 0 else (r.base.length : Int)) + i.steps * r.size + i.columns

/-- The text of an indentation.  Steps of a negative width lead to the margin, and not beyond. -/
def Ruling.lead (r : Ruling) (i : Indent) : Outcome (List Char) :=
  let base := if i.steps < 0 then [] else r.base
  let column := max i.steps 0 * r.size + i.columns
  if column < -1 then .error .outOfRange
  else if r.size < 0 then .ok base
  else if r.size = 0 then .ok (base ++ List.replicate column.toNat ' ')
  else
    .ok (base ++ (List.replicate (column / r.size).toNat r.unit).flatten ++
      List.replicate (column % r.size).toNat ' ')

/-- A place where a line can be broken. -/
structure BreakPoint where
  /-- The pieces before the place; with none there is no such place. -/
  count : Nat := 0
  /-- The width before the place. -/
  width : Int := 0
  /-- The indentation of the rest. -/
  indent : Indent := {}

structure Line where
  /-- The pieces, last first. -/
  pieces : List (List Char) := []
  indent : Indent := {}
  width : Int := 0
  breakPoint : BreakPoint := {}

namespace Line

/-- Whether a line has no pieces. -/
def isEmpty (l : Line) : Bool :=
  l.pieces.isEmpty

def last? (l : Line) : Option (List Char) :=
  l.pieces.head?

/-- An empty line with an indentation. -/
def blank (r : Ruling) (i : Indent) : Line :=
  { indent := i, width := r.width i }

/-- Indents a line that has no pieces yet. -/
def setIndent (r : Ruling) (i : Indent) (l : Line) : Line :=
  if l.isEmpty then { l with indent := i, width := r.width i } else l

/-- The width of a line with a piece more: what stands after its last line feed counts. -/
def widthWith (width : Int) (piece : List Char) : Int :=
  let tail := piece.reverse.takeWhile (· != '\n')
  if tail.length = piece.length then width + piece.length else (tail.length : Int) + 1

/-- Adds a piece. -/
def push (piece : List Char) (l : Line) : Line :=
  { l with pieces := piece :: l.pieces, width := widthWith l.width piece }

/-- Drops the last piece. -/
def pop (l : Line) : Line :=
  match l.pieces with
  | [] => l
  | piece :: rest => { l with pieces := rest, width := l.width - piece.length }

/-- Drops the spaces at the end. -/
def trim (l : Line) : Line :=
  let kept := l.pieces.dropWhile (· == [' '])
  { l with pieces := kept, width := l.width - (l.pieces.length - kept.length : Nat) }

/-- Takes one step of indentation away. -/
def outdent (r : Ruling) (l : Line) : Line :=
  if 0 < l.indent.steps then
    { l with indent := { l.indent with steps := l.indent.steps - 1 }, width := l.width - r.size }
  else l

/-- Takes one step of indentation away from what would follow a break. -/
def outdentBreak (l : Line) : Line :=
  let b := l.breakPoint
  if 0 < b.indent.steps then
    { l with breakPoint := { b with indent := { b.indent with steps := b.indent.steps - 1 } } }
  else l

/-- The text of a line. -/
def render (r : Ruling) (l : Line) : Outcome (List Char) := do
  if l.isEmpty then
    if r.indentEmptyLines then r.lead { l.indent with columns := 0 } else return []
  else return (← r.lead l.indent) ++ l.pieces.reverse.flatten

end Line

/-- Lines of code, the last of which is being written. -/
structure Page where
  ruling : Ruling
  /-- The lines before the current one, nearest first. -/
  above : List Line := []
  current : Line
  /-- The indentation of the next line. -/
  next : Indent := {}
  /-- Whether a space comes before the next piece. -/
  spaced : Bool := false
  /-- Whether the text is kept as it is. -/
  raw : Bool := false

namespace Page

/-- An empty page. -/
def ofRuling (r : Ruling) : Page :=
  { ruling := r, current := .blank r {} }

/-- The number of lines. -/
def size (p : Page) : Nat :=
  p.above.length + 1

def startLine (p : Page) : Page :=
  { p with above := p.current :: p.above, current := .blank p.ruling p.next }

/-- Whether nothing stands on the page. -/
def isEmpty (p : Page) : Bool :=
  p.above.isEmpty && p.current.isEmpty

/-- Whether the current line has no pieces. -/
def atStart (p : Page) : Bool :=
  p.current.isEmpty

/-- Whether the current line and the one before have no pieces. -/
def afterBlank (p : Page) : Bool :=
  p.isEmpty || (p.current.isEmpty && p.above.head?.all Line.isEmpty)

/-- Whether a request for a line is heard: not on an empty page, nor at the start of a line unless
`force` says so. -/
def takesBreak (p : Page) (force : Bool) : Bool :=
  !(p.isEmpty || (!force && p.atStart))

/-- Begins a line where that is allowed and the text is not kept as it is. -/
def breakLine (p : Page) (force : Bool) : Page :=
  if p.takesBreak force && !p.raw then p.startLine else p

/-- Sets the indentation of the next line, and of the current one if it is empty.  The first line of
a page has none. -/
def setIndent (p : Page) (i : Indent) : Page :=
  let own := if p.above.isEmpty then { steps := 0 } else i
  { p with next := i, current := p.current.setIndent p.ruling own }

/-- Notes that the current line can be broken here. -/
def markBreak (p : Page) : Page :=
  if p.ruling.wrapWidth = 0 then p
  else
    let point : BreakPoint :=
      { count := p.current.pieces.length, width := p.current.width, indent := p.next }
    { p with current := { p.current with breakPoint := point } }

/-- Whether the current line is to be broken where it can be. -/
def tooWide (p : Page) : Bool :=
  let l := p.current
  0 < l.breakPoint.count && p.ruling.wrapWidth < l.width &&
    p.ruling.width p.next < l.breakPoint.width

/-- Breaks the current line where it can be. -/
def wrap (p : Page) : Page :=
  let l := p.current
  let b := l.breakPoint
  let moved := l.pieces.take (l.pieces.length - b.count)
  let kept : Line := { l with pieces := l.pieces.drop moved.length, width := b.width }
  let width := p.ruling.width b.indent + (l.width - b.width)
  let rest : Line :=
    if moved.getLast? == some [' '] then { pieces := moved.dropLast, indent := b.indent, width := width - 1 }
    else { pieces := moved, indent := b.indent, width }
  { p with above := kept :: p.above, current := rest }

/-- Adds the space that is due.  Where `breaking` is set the line can be broken before it. -/
def addSpace (p : Page) (breaking : Bool) : Page :=
  if p.spaced && !p.atStart then
    let p := if breaking then p.markBreak else p
    { p with current := p.current.push [' '], spaced := false }
  else { p with spaced := false }

/-- Adds a piece, after the space that is due, and breaks the line if it is too wide. -/
def add (p : Page) (piece : List Char) (breaking : Bool) : Page :=
  let p := p.addSpace breaking
  let p := { p with current := p.current.push piece }
  if p.tooWide then p.wrap else p

/-- Whether `add` would break the line. -/
def breaksAt (p : Page) (piece : List Char) (breaking : Bool) : Bool :=
  let p := p.addSpace breaking
  tooWide { p with current := p.current.push piece }

/-- Adds a text as it is, after line breaks and blanks. -/
def addRaw (p : Page) (breaks : Nat) (blanks text : List Char) : Page :=
  let p := (List.range breaks).foldl (fun p _ => p.startLine) p
  { p with
    current := ((p.current.setIndent p.ruling {}).push blanks).push text
    spaced := false }

/-- Takes one step of indentation away from every line after the first `count` ones. -/
def outdentFrom (p : Page) (count : Nat) : Page :=
  let reached := p.size - count
  let current := if 0 < reached then p.current.outdent p.ruling else p.current
  { p with
    above := (p.above.take (reached - 1)).map (Line.outdent p.ruling) ++ p.above.drop (reached - 1)
    current := current.outdentBreak }

/-- Drops the spaces at the end of the current line; lines that are empty then are dropped with
`lines`, but for the first one. -/
def trim (p : Page) (lines : Bool) : Page :=
  go p.above p.current.trim
where
  go : List Line → Line → Page
    | [], l => { p with above := [], current := l }
    | l' :: rest, l =>
      if lines && l.isEmpty then go rest l'.trim else { p with above := l' :: rest, current := l }

/-- Puts an empty line above the lines before the current one that begin with `opening` or end with
the piece `ending`, unless there is one. -/
def separate (p : Page) (opening : Char) (ending : List Char) : Page :=
  { p with above := go p.above }
where
  go : List Line → List Line
    | [] => []
    | l :: rest =>
      if l.isEmpty then l :: rest
      else if (l.pieces.getLast?.bind List.head?) != some opening && l.last? != some ending then
        {} :: l :: rest
      else l :: go rest

/-- The page without blanks and line feeds at its end. -/
def close (p : Page) : Page :=
  let p := p.trim true
  match p.current.last? with
  | none => p
  | some [] => { p with current := p.current.pop }
  | some piece => { p with current := p.current.pop.push (trimRight (· == '\n') piece) }

/-- The text of a page. -/
def render (p : Page) (endWithBreak : Bool) (lineEnd : List Char) : Outcome (List Char) := do
  let p := p.close
  let p := if endWithBreak then p.startLine else p
  let lines ← (p.current :: p.above).reverse.mapM (Line.render p.ruling)
  return (joinWith ['\n'] lines).flatMap fun c => if c = '\n' then lineEnd else [c]

end Page

end TemplateTidy.Code
