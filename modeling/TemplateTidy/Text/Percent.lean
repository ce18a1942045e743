import TemplateTidy.Text.Line
import TemplateTidy.Text.Word

/-! # Percent encoding

In percent-encoded text a plus sign stands for a space, and a percent sign with two hexadecimal
digits for a byte.  The bytes of a run of ASCII characters are read as UTF-8; each part of them that
is no character becomes one replacement character. -/

namespace TemplateTidy.Text

/-- The bytes of ASCII text; a percent sign without two digits stands for itself. -/
def percentBytes : List Char → List Nat
  | '%' :: a :: b :: rest =>
    match hexDigit? a, hexDigit? b with
    | some m, some n => (16 * m + n) :: percentBytes rest
    | _, _ => '%'.toNat :: percentBytes (a :: b :: rest)
  | c :: rest => c.toNat :: percentBytes rest
  | [] => []

/-- For the first byte of a character: its share of the code, the range of the second byte, and how
many bytes follow. -/
def leadByte? (b : Nat) : Option (Nat × Nat × Nat × Nat) :=
  if 0xC2 ≤ b && b ≤ 0xDF then some (b - 0xC0, 0x80, 0xBF, 1)
  else if b = 0xE0 then some (0, 0xA0, 0xBF, 2)
  else if b = 0xED then some (0xD, 0x80, 0x9F, 2)
  else if 0xE1 ≤ b && b ≤ 0xEF then some (b - 0xE0, 0x80, 0xBF, 2)
  else if b = 0xF0 then some (0, 0x90, 0xBF, 3)
  else if 0xF1 ≤ b && b ≤ 0xF3 then some (b - 0xF0, 0x80, 0xBF, 3)
  else if b = 0xF4 then some (4, 0x80, 0x8F, 3)
  else none

def replacement : Char := '\ufffd'

/-- The code of a character of which `left` more bytes are due, the next between `low` and `high`,
and the bytes after it; the code is none if a byte does not fit. -/
def restOfCode (code : Nat) : (left low high : Nat) → List Nat → Option Nat × List Nat
  | 0, _, _, bs => (some code, bs)
  | _ + 1, _, _, [] => (none, [])
  | left + 1, low, high, b :: bs =>
    if low ≤ b && b ≤ high then restOfCode (code * 64 + (b - 0x80)) left 0x80 0xBF bs
    else (none, b :: bs)

theorem length_restOfCode (code left low high : Nat) (bs : List Nat) :
    (restOfCode code left low high bs).2.length ≤ bs.length := by
  induction left generalizing code low high bs with
  | zero => simp [restOfCode]
  | succ left ih =>
    cases bs with
    | nil => simp [restOfCode]
    | cons b bs =>
      unfold restOfCode
      split
      · exact Nat.le_trans (ih ..) (Nat.le_succ _)
      · simp

def decodeBytes : List Nat → List Char
  | [] => []
  | b :: bs =>
    if b < 0x80 then Char.ofNat b :: decodeBytes bs
    else
      match leadByte? b with
      | none => replacement :: decodeBytes bs
      | some (code, low, high, left) =>
        have := length_restOfCode code left low high bs
        ((restOfCode code left low high bs).1.map Char.ofNat).getD replacement ::
          decodeBytes (restOfCode code left low high bs).2
termination_by bs => bs.length
decreasing_by all_goals simp only [List.length_cons]; omega

/-- Decodes text: runs of ASCII characters are decoded, all others stay. -/
def percentDecode (s : List Char) : List Char :=
  let spaced := s.map fun c => if c = '+' then ' ' else c
  let isAscii (c : Char) : Bool := c.toNat < 0x80
  (spaced.splitBy fun a b => isAscii a == isAscii b).flatMap fun run =>
    if run.all isAscii then decodeBytes (percentBytes run) else run

/-- Whether text looks percent-encoded: it has no space, and an encoded one or several percent
signs. -/
def isPercentEncoded (s : List Char) : Bool :=
  !s.contains ' ' && (3 < s.count '%' || contains "%20".toList s)

end TemplateTidy.Text
