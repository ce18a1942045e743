import TemplateTidy.Layout.Attribute

/-! # Indentation

`indentLines` gives each line of a document its indent.  A line is told by its `Move`: whether it is
written at the level, opens or closes one, or is kept as it is.  Between the opening and the closing
line of an ignored region all lines are kept. -/

namespace TemplateTidy.Layout

open Text

/-- Where the indentation stands between two lines. -/
structure Indentation where
  level : Nat := 0
  /-- Inside an assignment tag that takes several lines. -/
  inSet : Bool := false
  /-- Inside an ignored region. -/
  inRegion : Bool := false
  /-- How many ignored regions are open. -/
  depth : Nat := 0
deriving DecidableEq, Repr

/-- What a line does to the indentation. -/
inductive Move where
  /-- Written at the level. -/
  | stay
  /-- Closes a level and is written at the one outside. -/
  | leave
  /-- Written at the level, which it closes. -/
  | leaveAfter
  /-- Written one level outside, without closing one. -/
  | divide
  /-- Written at the level, and opens one. -/
  | enter
  /-- Opens an assignment tag. -/
  | enterSet
  /-- Closes an assignment tag. -/
  | leaveSet
  /-- Kept as it is. -/
  | keep
deriving DecidableEq, Repr

/-- The level of a line, or nothing if the line is kept as it is. -/
def Move.lineLevel (level : Nat) : Move → Option Nat
  | .stay | .leaveAfter | .enter | .enterSet => some level
  | .leave | .leaveSet | .divide => some (level - 1)
  | .keep => none

def Move.nextLevel (level : Nat) : Move → Nat
  | .stay | .divide | .keep => level
  | .leave | .leaveAfter | .leaveSet => level - 1
  | .enter | .enterSet => level + 1

/-- Whether an assignment tag is open after a line. -/
def Move.inSet (now : Bool) : Move → Bool
  | .enterSet => true
  | .leaveSet => false
  | _ => now

/-! ### Telling lines apart -/

def regionLine : Pattern :=
  .ofSource looseLines (r"^\s*?(?:" ++ Region.inlineSource ++ ")")

/-- An element or template block that begins and ends here; `n` groups come before it.  Each way of
writing one stands on a line of its own. -/
def closedPiece (names : String) (n : Nat) : String :=
  let group (i : Nat) : String := "\\" ++ toString (n + i)
  String.intercalate "\n|"
    ["(?:<(" ++ names ++ ")>)(?:.*?)(?:</(?:" ++ group 1 ++ ")>)",
      "(?:<(" ++ names ++ r")\b[^>]+?>)(?:.*?)(?:</(?:" ++ group 2 ++ ")>)",
      "(?:<(?:" ++ Markup.voidSource ++ r")\b[^>]*?/?>)",
      "(?:<(?:" ++ names ++ r")\b[^>]*?/>)",
      r"(?:\x7b%[ ]*?(" ++ shortBlocks ++ r")[ ]+?.*?%\x7d)(?:.*?)(?:\x7b%[ ]+?end(?:" ++ group 3 ++
        r")[ ]+?.*?%\x7d)",
      Region.inlineSource]

/-- A line of closed elements, with text before and after them. -/
def closedLine (s : Settings) : Outcome Pattern :=
  compileSource looseLines
    (r"^(?:[^<\s].*?)?(?:" ++ closedPiece (elements s) 0 ++ r")[ \t]*?(?:.*?(?:" ++
      closedPiece (elements s) 3 ++ r")[ \t]*?)*?[^<]*?$")

/-- A line that ends an assignment tag. -/
def setEnd : Pattern :=
  .ofSource looseLines r"^(?!.*\x7b\%).*%\x7d.*$"

/-- A line that begins with a closing bracket. -/
def bracketEnd : Pattern :=
  .ofSource looseLines r"^[ ]*\x7d|^[ ]*]"

/-- A line that begins with a closing tag, or ends with one. -/
def closingLine (s : Settings) : Outcome Pattern :=
  compileSource looseLines
    ("^" ++ blockClosing ++ "|(?:^</(?:" ++ elements s ++ "\n" ++ r")\b)|(?:</(?:" ++ elements s ++
      "\n)>$)")

/-- A line whose last element without attributes is closed on it. -/
def closedAtEnd (s : Settings) : Outcome Pattern :=
  compileSource looseLines (r"(<(" ++ elements s ++ r")>)(.*?)(</(\2)>[^<]*?$)")

/-- Like `closedAtEnd`, where a backslash and a `b` follow the name. -/
def closedAtEndEscaped (s : Settings) : Outcome Pattern :=
  compileSource looseLines (r"(<(" ++ elements s ++ r")\\b[^>]+?>)(.*?)(</(\2)>[^<]*?$)")

/-- A line that begins with a closed element without attributes. -/
def closedAtStart (s : Settings) : Outcome Pattern :=
  compileSource looseLines (r"(^<(" ++ elements s ++ r")>)(.*?)(</(\2)>)")

/-- A line that begins with a closed element with attributes. -/
def attributedAtStart (s : Settings) : Outcome Pattern :=
  compileSource looseLines (r"(^<(" ++ elements s ++ r")\b[^>]+?>)(.*?)(</(\2)>)")

/-- A line with a tag between the parts of a block. -/
def dividerLine : Pattern :=
  .ofSource looseLines ("^" ++ blockDivider)

/-- A line that begins an assignment tag and does not end it. -/
def setStart : Pattern :=
  .ofSource looseLines r"^([ ]*\x7b%[ ]*?set)(?!.*%\x7d).*$"

/-- A line that leaves a bracket open. -/
def bracketStart : Pattern :=
  .ofSource looseLines
    r"(\x7b(?![^\x7b\x7d]*%[\x7d\s])(?=[^\x7b\x7d]*$)|\[(?=[^\]]*$))"

def openingLine (s : Settings) : Outcome Pattern :=
  compileSource looseLines
    ("^(?:" ++ blockOpening s ++ "|(?:<(?:" ++ elements s ++ "\n" ++ r")\b))")

/-- The patterns that hold names from the settings, each read once. -/
structure LinePatterns where
  closedLine : Outcome Pattern
  closingLine : Outcome Pattern
  closedAtEnd : Outcome Pattern
  closedAtEndEscaped : Outcome Pattern
  closedAtStart : Outcome Pattern
  attributedAtStart : Outcome Pattern
  openingLine : Outcome Pattern
  attributedTag : Outcome Pattern

def LinePatterns.of (s : Settings) : LinePatterns :=
  { closedLine := Layout.closedLine s
    closingLine := Layout.closingLine s
    closedAtEnd := Layout.closedAtEnd s
    closedAtEndEscaped := Layout.closedAtEndEscaped s
    closedAtStart := Layout.closedAtStart s
    attributedAtStart := Layout.attributedAtStart s
    openingLine := Layout.openingLine s
    attributedTag := Layout.attributedTag s }

/-- How a line lies with respect to the ignored regions. -/
structure Standing where
  /-- It opens a region that does not end on it. -/
  opens : Bool
  /-- It closes a region that did not begin on it. -/
  closes : Bool
  /-- It closes a region in a way that lets it be indented. -/
  closesSafely : Bool
deriving DecidableEq, Repr

def Standing.of (line : Array Char) : Standing :=
  { opens := Region.opensOn line, closes := Region.closesOn line,
    closesSafely := Region.closesSafelyOn line }

def closesLevel (ps : LinePatterns) (inRegion : Bool) (standing : Standing) (line : Array Char) :
    Outcome Bool := do
  let closing ← ps.closingLine
  if !closing.occurs line || inRegion || standing.closesSafely then return false
  if (← ps.closedAtEnd).occurs line then return false
  return !(← ps.closedAtEndEscaped).occurs line

/-- How a line moves the indentation.  `inRegion` tells whether it lies in an ignored region, and
`first` whether it opens the outermost one. -/
def moveOf (s : Settings) (ps : LinePatterns) (inSet inRegion first : Bool) (standing : Standing)
    (line : Array Char) : Outcome Move := do
  if !inRegion && regionLine.occurs line then return .stay
  let closed ← ps.closedLine
  if !inRegion && closed.occurs line then return .stay
  if !inRegion && inSet && setEnd.occurs line then return .leaveSet
  if !inRegion && inSet && bracketEnd.occurs line then return .leave
  if ← closesLevel ps inRegion standing line then
    if (← ps.closedAtStart).occurs line then return .leaveAfter
    if (← ps.attributedAtStart).occurs line then return .leaveAfter
    return .leave
  if !inRegion && dividerLine.occurs line then return .divide
  if !inRegion && !inSet && setStart.occurs line then return .enterSet
  if !inRegion && inSet && bracketStart.occurs line then return .enter
  let opening ← ps.openingLine
  if !inRegion && opening.occurs line then return .enter
  if first || (standing.closesSafely && !inRegion) then return .stay
  if inRegion || line.all isBlank then return .keep
  return if s.preserveLeadingSpace.truthy then .keep else .stay

/-! ### The document -/

/-- A line with its indent. -/
def placed (s : Settings) (level : Option Nat) (line : List Char) : List Char :=
  match level with
  | some n => indents s n ++ line
  | none => line

/-- Indents one line and gives it with its line feed. -/
def indentLine (s : Settings) (ps : LinePatterns) (now : Indentation) (line : List Char) :
    Outcome (List Char × Indentation) := do
  let chars := line.toArray
  let standing := Standing.of chars
  let first := standing.opens && !now.inRegion
  let opened := now.inRegion || standing.opens
  let depth := now.depth + (if standing.opens then 1 else 0)
  let depth := if standing.closesSafely then depth - 1 else depth
  let inRegion := opened && !(standing.closesSafely && depth == 0)
  let move ← moveOf s ps now.inSet inRegion first standing chars
  let written := placed s (move.lineLevel now.level) line ++ ['\n']
  let inRegion := inRegion || standing.opens
  let written ←
    if inRegion then pure written
    else do
      let tag ← ps.attributedTag
      let target := written.toArray
      tag.replaceAllM (spreadAttributes s chars target) target
  let depth := if standing.closes && !standing.closesSafely then depth - 1 else depth
  return (written,
    { level := move.nextLevel now.level
      inSet := move.inSet now.inSet
      inRegion := inRegion && !(standing.closes && depth == 0)
      depth })

/-- Indents lines one after the other. -/
def indentFrom (s : Settings) (ps : LinePatterns) (now : Indentation) :
    List (List Char) → Outcome (List Char)
  | [] => return []
  | line :: rest => do
    let (written, next) ← indentLine s ps now line
    return written ++ (← indentFrom s ps next rest)

def indentLines (s : Settings) (text : List Char) : Outcome (List Char) :=
  indentFrom s (LinePatterns.of s) {} (text.splitOn '\n')

end TemplateTidy.Layout
