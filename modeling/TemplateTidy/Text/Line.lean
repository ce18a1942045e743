/-! # Lines

`splitLines` cuts a text at every line boundary: line feed, carriage return (with a following line
feed, one boundary), vertical tab, form feed, the first three information separators, next line,
line separator and paragraph separator.  A boundary at the very end opens no further line. -/

namespace TemplateTidy.Text

def isLineEnd (c : Char) : Bool :=
  let n := c.toNat
  (10 ≤ n && n ≤ 13) || (0x1C ≤ n && n ≤ 0x1E) || n == 0x85 || n == 0x2028 || n == 0x2029

/-- Cuts a text at line boundaries; `line` is the current line so far, reversed. -/
def splitLinesFrom (line : List Char) : List Char → List (List Char)
  | [] => if line.isEmpty then [] else [line.reverse]
  | '\r' :: '\n' :: rest => line.reverse :: splitLinesFrom [] rest
  | c :: rest =>
    if isLineEnd c then line.reverse :: splitLinesFrom [] rest
    else splitLinesFrom (c :: line) rest

/-- The lines of a text, without their boundaries. -/
def splitLines (s : List Char) : List (List Char) :=
  splitLinesFrom [] s

/-- Joins texts with `sep` between neighbours. -/
def joinWith (sep : List Char) : List (List Char) → List Char
  | [] => []
  | [s] => s
  | s :: t :: rest => s ++ sep ++ joinWith sep (t :: rest)

/-- Splits at every occurrence of a text that is not empty; `skip` characters are still part of the
last occurrence, and `piece` is the current piece so far, reversed. -/
def splitAtTextFrom (sep : List Char) (skip : Nat) (piece : List Char) :
    List Char → List (List Char)
  | [] => [piece.reverse]
  | c :: rest =>
    if 0 < skip then splitAtTextFrom sep (skip - 1) piece rest
    else if sep.isPrefixOf (c :: rest) then
      piece.reverse :: splitAtTextFrom sep (sep.length - 1) [] rest
    else splitAtTextFrom sep 0 (c :: piece) rest

/-- Splits at every occurrence of a text that is not empty. -/
def splitAtText (sep s : List Char) : List (List Char) :=
  splitAtTextFrom sep 0 [] s

/-- Whether `part` occurs in a text. -/
def contains (part : List Char) : List Char → Bool
  | [] => part.isEmpty
  | c :: rest => part.isPrefixOf (c :: rest) || contains part rest

/-- Reads line ends of every platform as line feeds. -/
def unifyLineEnds : List Char → List Char
  | [] => []
  | '\r' :: '\n' :: rest => '\n' :: unifyLineEnds rest
  | '\r' :: rest => '\n' :: unifyLineEnds rest
  | c :: rest => c :: unifyLineEnds rest

end TemplateTidy.Text
