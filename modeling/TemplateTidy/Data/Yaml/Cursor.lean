import TemplateTidy.Text.Line

/-! # Places in a YAML document

The characters that divide a document, and a place in it with its line and column. -/

namespace TemplateTidy.Data.Yaml

/-- Whether the character ends a line. -/
def isBreak (c : Char) : Bool :=
  c == '\n' || c == '\r' || c == '\u0085' || c == '\u2028' || c == '\u2029'

/-- Whether a place is blank, a line end or the end of the text. -/
def isGapAt : List Char → Bool
  | [] => true
  | c :: _ => c == ' ' || c == '\t' || isBreak c

/-- Whether a place is a line end or the end of the text. -/
def isEndAt : List Char → Bool
  | [] => true
  | c :: _ => isBreak c

/-- Whether a place is a space, a line end or the end of the text. -/
def isSpaceOrEndAt : List Char → Bool
  | [] => true
  | c :: _ => c == ' ' || isBreak c

/-- The characters that a document may hold. -/
def isAllowed (c : Char) : Bool :=
  c == '\t' || c == '\n' || c == '\r' || (' ' ≤ c && c ≤ '~') || c == '\u0085' ||
    ('\u00a0' ≤ c && c ≤ '\ud7ff') || ('\ue000' ≤ c && c ≤ '\ufffd') || 0x10000 ≤ c.toNat

/-- A place in the text. -/
structure Cursor where
  rest : List Char
  index : Nat := 0
  line : Nat := 0
  column : Nat := 0

namespace Cursor

/-- The place after the next character. -/
def next (c : Cursor) : Cursor :=
  match c.rest with
  | [] => c
  | ch :: rest =>
    if ch == '\n' || ch == '\u0085' || ch == '\u2028' || ch == '\u2029' ||
        (ch == '\r' && rest.head? != some '\n') then
      { rest, index := c.index + 1, line := c.line + 1, column := 0 }
    else
      { rest, index := c.index + 1, line := c.line,
        column := if ch == '\ufeff' then c.column else c.column + 1 }

/-- The place some characters on. -/
def forward (c : Cursor) : Nat → Cursor
  | 0 => c
  | n + 1 => c.next.forward n

/-- The place after a run of characters. -/
def skipWhile (p : Char → Bool) (c : Cursor) : Cursor :=
  c.forward (c.rest.takeWhile p).length

/-- Passes a line end, if there is one, and gives it as it counts in text. -/
def lineBreak (c : Cursor) : List Char × Cursor :=
  match c.rest with
  | '\r' :: '\n' :: _ => (['\n'], c.forward 2)
  | ch :: _ =>
    if ch == '\u2028' || ch == '\u2029' then ([ch], c.next)
    else if isBreak ch then (['\n'], c.next)
    else ([], c)
  | [] => ([], c)

/-- Whether a mark between documents stands here. -/
def atSeparator (c : Cursor) : Bool :=
  let mark := c.rest.take 3
  (mark == ['-', '-', '-'] || mark == ['.', '.', '.']) && isGapAt (c.rest.drop 3)

def skipComment (c : Cursor) : Cursor :=
  if c.rest.head? == some '#' then c.skipWhile (!isBreak ·) else c

/-- Passes blanks and a comment up to the end of the line, and the line end; nothing else may stand
there. -/
def restOfLine? (c : Cursor) : Option Cursor :=
  let c := (c.skipWhile (· == ' ')).skipComment
  if isEndAt c.rest then some c.lineBreak.2 else none

end Cursor

/-- The characters of names of anchors and of tag handles. -/
def isNameChar (c : Char) : Bool :=
  c.isAlphanum || c == '-' || c == '_'

end TemplateTidy.Data.Yaml
