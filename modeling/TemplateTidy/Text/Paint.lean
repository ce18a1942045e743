/-! # Painted text

A text is painted by codes around it: an escape, a bracket, digits with semicolons and question marks,
and a letter.  `plain` takes the codes out again; a code that is cut short stays. -/

namespace TemplateTidy.Text

/-- The character that begins a code. -/
def escape : Char := '\x1b'

/-- The colours in use. -/
inductive Color where
  | red
  | yellow
  | blue
deriving DecidableEq, Repr

/-- The number of a colour. -/
def Color.code : Color → String
  | .red => "31"
  | .yellow => "33"
  | .blue => "34"

/-- Text in a colour, with the colour reset after it. -/
def paint (color : Color) (s : String) : String :=
  String.singleton escape ++ "[" ++ color.code ++ "m" ++ s ++ String.singleton escape ++ "[0m"

/-- Whether the character may stand between the bracket and the letter of a code. -/
def isCodeBody (c : Char) : Bool :=
  ('0' ≤ c && c ≤ '9') || c == ';' || c == '?'

/-- Drops codes; `held` is the beginning of a code that was read last, the latest first. -/
def plainFrom (held : List Char) : List Char → List Char
  | [] => held.reverse
  | c :: rest =>
    if c == escape then held.reverse ++ plainFrom [c] rest
    else if held.isEmpty then c :: plainFrom [] rest
    else if held == [escape] then
      if c == '[' then plainFrom (c :: held) rest else escape :: c :: plainFrom [] rest
    else if isCodeBody c then plainFrom (c :: held) rest
    else if c.isAlpha then plainFrom [] rest
    else held.reverse ++ c :: plainFrom [] rest

/-- The text without colour codes. -/
def plain (s : String) : String :=
  String.ofList (plainFrom [] s.toList)

end TemplateTidy.Text
