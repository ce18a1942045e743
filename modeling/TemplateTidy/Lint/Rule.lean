import TemplateTidy.Failure
import TemplateTidy.Pattern.Search

/-! # Rules and findings

A rule has a code, a message and a test.  The test of a rule from a rule file is read only when it is
used, so a badly written rule that is switched off does no harm. -/

namespace TemplateTidy.Lint

open Text

/-- How a rule looks for what it forbids. -/
inductive Test where
  /-- By patterns that are ready for use. -/
  | patterns (ps : List Pattern)
  /-- By a search of its own. -/
  | search (find : Array Char → List Span)
  /-- By patterns as a rule file writes them, and their options. -/
  | written (options patterns : Value)
  /-- By a check that is known by name. -/
  | check (name : Value)

/-- Patterns that are known to be well written. -/
def Test.ready (flags : Flags) (sources : List String) : Test :=
  .patterns (sources.map (Pattern.ofSource flags))

structure Rule where
  name : Value
  message : Value
  test : Test
  /-- The profiles in which the rule is off. -/
  exclude : Value := .list []
  /-- Whether the rule is on unless asked otherwise. -/
  enabled : Value := .bool true

/-- A place where a rule is broken. -/
structure Finding where
  code : Value
  /-- Line and column. -/
  place : String
  /-- The beginning of the offending text. -/
  excerpt : String
  message : Value

def Finding.same (a b : Finding) : Bool :=
  a.code == b.code && a.place == b.place && a.excerpt == b.excerpt && a.message == b.message

/-- The spans of the lines of a text, each with its line feed, from `start` on.  A last line without
line feed counts unless it is empty. -/
def lineSpansFrom (start pos : Nat) : List Char → List Span
  | [] => if start < pos then [⟨start, pos⟩] else []
  | c :: rest =>
    if c = '\n' then ⟨start, pos + 1⟩ :: lineSpansFrom (pos + 1) (pos + 1) rest
    else lineSpansFrom start (pos + 1) rest

def lineSpans (text : List Char) : List Span :=
  lineSpansFrom 0 0 text

/-- Line and column of a position, counted from 1 and from 0; `number` is the first line's. -/
def placeFrom (number : Nat) (pos : Int) : List Span → Outcome String
  | [] => .error .outOfRange
  | line :: rest =>
    if pos < line.stop then
      .ok (toString number ++ ":" ++ toString (pos - (line.start : Int)))
    else placeFrom (number + 1) pos rest

/-- Line and column of a position. -/
def placeOf (pos : Int) (lines : List Span) : Outcome String :=
  placeFrom 1 pos lines

/-- The first twenty characters of a match, without blanks at its ends. -/
def excerptOf (s : List Char) : String :=
  String.ofList ((strip s).take 20)

/-- The bit that a named option has in a number of options. -/
def optionBit (name : String) : Option Nat :=
  match name with
  | "re.A" | "re.ASCII" => some 128
  | "re.I" | "re.IGNORECASE" => some 2
  | "re.M" | "re.MULTILINE" => some 8
  | "re.S" | "re.DOTALL" => some 16
  | "re.X" | "re.VERBOSE" => some 64
  | "re.L" | "re.LOCALE" => some 4
  | _ => none

def optionNames (written : String) : List String :=
  (written.toList.splitOn '|').map fun part => String.ofList (strip part)

/-- The number of the options that a text names. -/
def optionBits (written : String) : Outcome Nat :=
  (optionNames written).foldlM (fun bits name =>
    match optionBit name with
    | some b => .ok (bits ||| b)
    | none => .error (.missingKey (.text name))) 0

/-- The options of a number.  Where letters depend on the place, they are those of the plain alphabet. -/
def optionsOf (bits : Nat) : Flags :=
  { ascii := bits.testBit 7 || bits.testBit 2, ignoreCase := bits.testBit 1,
    multiline := bits.testBit 3, dotAll := bits.testBit 4, verbose := bits.testBit 6 }

def options (written : String) : Outcome Flags :=
  return optionsOf (← optionBits written)

end TemplateTidy.Lint
