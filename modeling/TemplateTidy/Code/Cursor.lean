import TemplateTidy.Pattern.Search
import TemplateTidy.Text.Case

/-! # Reading code

A `Cursor` stands between the characters of a text.  Layouts of code read forward and look back a
little.  Comments may carry directives, which switch the layout off for a while. -/

namespace TemplateTidy.Code

open Text

/-- A place in a text. -/
structure Cursor where
  /-- The characters before the place, nearest first. -/
  past : List Char
  /-- The characters after it. -/
  future : List Char
deriving Repr

namespace Cursor

def ofText (text : List Char) : Cursor :=
  ⟨[], text⟩

/-- The next character. -/
def peek? (c : Cursor) : Option Char :=
  c.future.head?

/-- Goes `n` characters on. -/
def skip (n : Nat) (c : Cursor) : Cursor :=
  ⟨(c.future.take n).reverse ++ c.past, c.future.drop n⟩

def back (c : Cursor) : Cursor :=
  match c.past with
  | [] => c
  | x :: rest => ⟨rest, x :: c.future⟩

/-- Reads the characters of a class. -/
def takeWhile (p : Char → Bool) (c : Cursor) : List Char × Cursor :=
  let taken := c.future.takeWhile p
  (taken, c.skip taken.length)

/-- Whether a text stands before the last character, in any case. -/
def follows (c : Cursor) (s : String) : Bool :=
  let n := s.length
  let before := c.past.drop 1
  n ≤ before.length && lower (before.take n).reverse == s.toList

/-- The number of characters up to the end of the first occurrence of `mark`, if there is one. -/
def reach? (mark : List Char) : List Char → Option Nat
  | [] => if mark.isEmpty then some 0 else none
  | x :: rest =>
    if mark.isPrefixOf (x :: rest) then some mark.length else (reach? mark rest).map (· + 1)

end Cursor

def directiveComment : Pattern :=
  .ofSource { strict := true } r"/\* beautify( \w+[:]\w+)+ \*/"

def directive : Pattern :=
  .ofSource { strict := true } r" (\w+)[:](\w+)"

def ignoreEnd : Pattern :=
  .ofSource { strict := true } r"/\*\sbeautify\signore:end\s\*/"

/-- The directives of a comment, if it holds any; the last one of a name counts. -/
def directivesOf (comment : List Char) : List (List Char × List Char) :=
  let text := comment.toArray
  if (directiveComment.matchStart? text).isSome then
    ((directive.findAll text).map fun m => (m.capture text 1, m.capture text 2)).reverse
  else []

/-- Whether directives give a name a value. -/
def directs (directives : List (List Char × List Char)) (name value : String) : Bool :=
  directives.lookup name.toList == some value.toList

/-- Reads up to the end of an ignored part. -/
def Cursor.takeIgnored (c : Cursor) : List Char × Cursor :=
  let n := match ignoreEnd.find? c.future.toArray with
    | some m => m.stop
    | none => c.future.length
  (c.future.take n, c.skip n)

end TemplateTidy.Code
