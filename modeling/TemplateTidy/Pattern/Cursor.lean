import TemplateTidy.Pattern.Syntax

/-! # Reading characters of a written pattern

The options of patterns, what can be wrong with a written pattern, and the place where its reader
stands.  Blanks and comments count only where the options do not ask to skip them. -/

namespace TemplateTidy

open Text

/-- What makes a text no pattern. -/
inductive PatternFault where
  | nothingToRepeat
  | multipleRepeat
  | badRepeatRange
  | missing (text : String)
  | unterminatedSet
  | badRange
  | badEscape
  | badGroupName
  | unknownGroup
  | openGroup
  | badFlags
  | unknownExtension
  /-- A look-behind that matches texts of different lengths. -/
  | variableWidth
  | unbalanced
  | tooDeep
deriving DecidableEq, Repr

/-- The reader's options. -/
structure Flags where
  ignoreCase : Bool := false
  /-- Line anchors hold at every line. -/
  multiline : Bool := false
  /-- The dot stands for a line feed too. -/
  dotAll : Bool := false
  /-- Blanks and comments are skipped. -/
  verbose : Bool := false
  /-- Named classes and letter case know ASCII only. -/
  ascii : Bool := false
  /-- Spaces include the information separators, and look-behind needs a fixed width. -/
  strict : Bool := false
deriving DecidableEq, Repr

/-- The options of both. -/
def Flags.union (a b : Flags) : Flags :=
  { ignoreCase := a.ignoreCase || b.ignoreCase, multiline := a.multiline || b.multiline,
    dotAll := a.dotAll || b.dotAll, verbose := a.verbose || b.verbose,
    ascii := a.ascii || b.ascii, strict := a.strict || b.strict }

/-- The options of the first that are not in the second. -/
def Flags.diff (a b : Flags) : Flags :=
  { ignoreCase := a.ignoreCase && !b.ignoreCase, multiline := a.multiline && !b.multiline,
    dotAll := a.dotAll && !b.dotAll, verbose := a.verbose && !b.verbose,
    ascii := a.ascii && !b.ascii, strict := a.strict && !b.strict }

/-- How the options compare letters. -/
def Flags.folding (f : Flags) : Folding :=
  if f.ignoreCase then (if f.ascii then .ascii else .simple) else .exact

namespace Pattern

/-- Where the reader stands. -/
structure Cursor where
  rest : List Char
  flags : Flags
  /-- Flags of the whole pattern. -/
  shared : Flags
  /-- Whether blanks and comments are skipped now. -/
  skipping : Bool
  count : Nat := 0
  names : List (String × Nat) := []
  opened : List Nat := []
  /-- Whether only options and comments have been read. -/
  pristine : Bool := true

/-- Why the reader stops before the end. -/
inductive Halt where
  | fault (f : PatternFault)
  /-- The pattern sets flags for all of it. -/
  | restart (flags : Flags)

abbrev Reader := StateT Cursor (Except Halt)

def fail {α : Type} (f : PatternFault) : Reader α :=
  throw (.fault f)

/-- Drops blanks and comments.  A comment goes up to the line feed, or to the end if there is none. -/
def dropIgnored (inComment : Bool) : List Char → List Char
  | [] => []
  | c :: rest =>
    if inComment then dropIgnored (c != '\n') rest
    else if isBlank c then dropIgnored false rest
    else if c == '#' then dropIgnored true rest
    else c :: rest

/-- The rest of the text from the next character that counts. -/
def Cursor.ahead (c : Cursor) : List Char :=
  if c.skipping then dropIgnored false c.rest else c.rest

def next? : Reader (Option Char) := do
  let c ← get
  match c.ahead with
  | [] => set { c with rest := [] }; return none
  | ch :: rest => set { c with rest }; return some ch

def nextRaw? : Reader (Option Char) := do
  let c ← get
  match c.rest with
  | [] => return none
  | ch :: rest => set { c with rest }; return some ch

/-- Reads the given characters, or nothing. -/
def accept (text : String) : Reader Bool := do
  let start ← get
  let rec go : List Char → Cursor → Option Cursor
    | [], c => some c
    | x :: xs, c =>
      match c.ahead with
      | y :: rest => if x == y then go xs { c with rest } else none
      | [] => none
  match go text.toList start with
  | some c => set c; return true
  | none => return false

/-- Reads the given characters. -/
def expect (text : String) : Reader Unit := do
  unless ← accept text do fail (.missing text)

/-- Reads characters of a class for as long as there are any. -/
def takeWhile (p : Char → Bool) : Reader (List Char) := do
  let rec go : (fuel : Nat) → Cursor → List Char → List Char × Cursor
    | 0, c, acc => (acc.reverse, c)
    | fuel + 1, c, acc =>
      match c.ahead with
      | y :: rest => if p y then go fuel { c with rest } (y :: acc) else (acc.reverse, { c with rest := y :: rest })
      | [] => (acc.reverse, { c with rest := [] })
  let c ← get
  let (read, c) := go c.rest.length c []
  set c
  return read

end Pattern

end TemplateTidy
