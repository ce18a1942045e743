import TemplateTidy.Number.Shortest

/-! # Exact arithmetic on floating-point numbers

A finite number is a whole number over a power of two.  Comparisons with whole numbers, remainders and
quotients of whole numbers are computed on such fractions, so that each result is rounded at most
once. -/

namespace TemplateTidy.Number

/-- A finite number as a fraction, whose denominator is a power of two. -/
def ratio (x : Float) : Int × Nat :=
  let b := Binary.ofFloat x
  let size : Int := (b.mantissa * Nat.pow 2 b.exponent.toNat : Nat)
  (if isNegative x then -size else size, Nat.pow 2 (-b.exponent).toNat)

/-- How a whole number compares with a floating-point one; none for what is not a number. -/
def compareWhole? (i : Int) (x : Float) : Option Ordering :=
  if x.isNaN then none
  else if x.isInf then some (if isNegative x then .gt else .lt)
  else
    let (num, den) := ratio x
    some (compare (i * den) num)

/-- The number nearest to a whole one, if it is finite. -/
def ofWhole? (i : Int) : Option Float :=
  let x := Float.ofInt i
  if x.isInf then none else some x

/-- The number nearest to a quotient of natural numbers: sixty-four bits of it are computed, and a
last one tells whether anything is left. -/
def nearest (num den : Nat) : Float :=
  let up : Int := den.log2 + 64 - num.log2
  let num := num * Nat.pow 2 up.toNat
  let den := den * Nat.pow 2 (-up).toNat
  let bits := 2 * (num / den) + (if num % den = 0 then 0 else 1)
  (Float.ofNat bits).scaleB (-up - 1)

/-- The quotient of two whole numbers; none if the divisor is zero or the quotient is too large. -/
def quotient? (i j : Int) : Option Float :=
  if j = 0 then none
  else
    let x := nearest i.natAbs j.natAbs
    if x.isInf then none
    else some (if (i < 0) != (j < 0) then -x else x)

/-- What is left of `x` after as many whole `y` as fit, with the sign of `x`. -/
def leftOver (x y : Float) : Float :=
  if x.isNaN || y.isNaN || x.isInf || y == 0.0 then 0.0 / 0.0
  else if y.isInf then x
  else
    let a := Binary.ofFloat x
    let b := Binary.ofFloat y
    let low := min a.exponent b.exponent
    let whole (n : Number.Binary) : Nat := n.mantissa * Nat.pow 2 (n.exponent - low).toNat
    let rest := whole a % whole b
    let r := (Float.ofNat rest).scaleB low
    if isNegative x then -r else r

/-- The remainder whose sign is the divisor's. -/
def remainder (x y : Float) : Float :=
  let r := leftOver x y
  if r == 0.0 then if isNegative y then -0.0 else 0.0
  else if (y < 0.0) != (r < 0.0) then r + y
  else r

/-- The whole quotient that goes with `remainder`. -/
def floorQuotient (x y : Float) : Float :=
  let r := leftOver x y
  let q := (x - r) / y
  let q := if r != 0.0 && (y < 0.0) != (r < 0.0) then q - 1.0 else q
  if q == 0.0 then if isNegative (x / y) then -0.0 else 0.0
  else
    let low := q.floor
    if 0.5 < q - low then low + 1.0 else low

end TemplateTidy.Number
