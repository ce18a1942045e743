import TemplateTidy.Failure
import TemplateTidy.Text.Blank

/-! # Whole numbers

The whole number that a value stands for: numbers lose their fraction, truth values count as 0 and 1,
and text is read. -/

namespace TemplateTidy

open Text

/-- Whole numbers as text: a sign, and digits with single underscores between them. -/
def wholeNumber? (s : List Char) : Option Int :=
  let t := trimBoth isSpace s
  let (negative, t) := match t with
    | '-' :: rest => (true, rest)
    | '+' :: rest => (false, rest)
    | _ => (false, t)
  let parts := t.splitOn '_'
  if parts.all fun p => !p.isEmpty && p.all isDigit then
    let n := parts.flatten.foldl (fun n c => n * 10 + digitValue c) 0
    some (if negative then -(n : Int) else (n : Int))
  else none

def Value.toInt (v : Value) : Outcome Int :=
  match v with
  | .int i => .ok i
  | .bool b => .ok (if b then 1 else 0)
  | .float x =>
    if x.isInf then .error .infinite
    else if x.isNaN then .error (.notANumber (Number.render x))
    else
      let b := Number.Binary.ofFloat x
      let size : Nat :=
        if 0 ≤ b.exponent then b.mantissa * Nat.pow 2 b.exponent.toNat
        else b.mantissa / Nat.pow 2 (-b.exponent).toNat
      .ok (if Number.isNegative x then -(size : Int) else (size : Int))
  | .text s =>
    match wholeNumber? s.toList with
    | some i => .ok i
    | none => .error (.notANumber s)
  | _ => .error .wrongType

end TemplateTidy
