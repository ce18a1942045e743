/-! # Blank characters

Two classes of blank characters.  `isBlank` is the wide one, which trimming and the tests for empty
text use: it holds the four information separators.  `isSpace` is the class that a pattern's space
escape stands for, without them. -/

namespace TemplateTidy.Text

def isSpace (c : Char) : Bool :=
  let n := c.toNat
  (9 ≤ n && n ≤ 13) || n == 32 || n == 0x85 || n == 0xA0 || n == 0x1680 ||
    (0x2000 ≤ n && n ≤ 0x200A) || n == 0x2028 || n == 0x2029 || n == 0x202F ||
    n == 0x205F || n == 0x3000

/-- White space or an information separator. -/
def isBlank (c : Char) : Bool :=
  isSpace c || (0x1C ≤ c.toNat && c.toNat ≤ 0x1F)

theorem isBlank_of_isSpace {c : Char} (h : isSpace c = true) : isBlank c = true := by
  simp [isBlank, h]

/-- Drops the leading characters of a class. -/
def trimLeft (p : Char → Bool) (s : List Char) : List Char :=
  s.dropWhile p

/-- Drops the trailing characters of a class. -/
def trimRight (p : Char → Bool) (s : List Char) : List Char :=
  (s.reverse.dropWhile p).reverse

/-- Drops the characters of a class at both ends. -/
def trimBoth (p : Char → Bool) (s : List Char) : List Char :=
  trimRight p (trimLeft p s)

/-- Drops leading blanks. -/
def stripLeft (s : List Char) : List Char :=
  trimLeft isBlank s

/-- Drops trailing blanks. -/
def stripRight (s : List Char) : List Char :=
  trimRight isBlank s

/-- Drops blanks at both ends. -/
def strip (s : List Char) : List Char :=
  trimBoth isBlank s

end TemplateTidy.Text
