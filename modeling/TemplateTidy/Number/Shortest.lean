/-! # Shortest decimals

The decimal with the fewest digits that reads back as a given floating-point number.  A number is
decoded into `mantissa * 2 ^ exponent`; the reals that round to it form an interval, and the first
decimal grid that has a point in this interval gives the digits.  All arithmetic is exact. -/

namespace TemplateTidy.Number

/-- A finite positive number `mantissa * 2 ^ exponent`. -/
structure Binary where
  mantissa : Nat
  exponent : Int
  /-- The neighbour below is only half as far away as the one above. -/
  narrowBelow : Bool

/-- Decodes the magnitude of a finite number. -/
def Binary.ofFloat (x : Float) : Binary :=
  let bits := x.toBits.toNat
  let fraction : Nat := bits % Nat.pow 2 52
  let scale : Nat := bits / Nat.pow 2 52 % Nat.pow 2 11
  if scale = 0 then { mantissa := fraction, exponent := -1074, narrowBelow := false }
  else
    { mantissa := fraction + Nat.pow 2 52, exponent := Int.ofNat scale - 1075,
      narrowBelow := fraction == 0 && 1 < scale }

/-- Whether the sign bit is set. -/
def isNegative (x : Float) : Bool :=
  Nat.pow 2 63 ≤ x.toBits.toNat

/-- The decimal `digits * 10 ^ exponent`. -/
structure Decimal where
  digits : Nat
  exponent : Int
deriving DecidableEq, Repr

/-- The least `k` at or above `k` with `num < den * 10 ^ k`. -/
def scaleUp (num den : Nat) : (fuel k : Nat) → Nat
  | 0, k => k
  | fuel + 1, k => if num < den * Nat.pow 10 k then k else scaleUp num den fuel (k + 1)

/-- The greatest `j` from `j` on with `num * 10 ^ j < den`. -/
def scaleDown (num den : Nat) : (fuel j : Nat) → Nat
  | 0, j => j
  | fuel + 1, j => if num * Nat.pow 10 (j + 1) < den then scaleDown num den fuel (j + 1) else j

/-- The least `k` with `num / den < 10 ^ k`. -/
def scaleOf (num den : Nat) : Int :=
  if den ≤ num then scaleUp num den 400 0 else -(scaleDown num den 400 0 : Int)

/-- A decimal of `n` digits that reads back as `b`, if there is one. -/
def Binary.withDigits? (b : Binary) (scale : Int) (n : Nat) : Option Decimal :=
  let place : Int := scale - n
  let twos := (2 - b.exponent).toNat
  let tens := (-place).toNat
  let value := b.mantissa * Nat.pow 2 (b.exponent + twos).toNat * Nat.pow 10 tens
  let above := Nat.pow 2 (b.exponent - 1 + twos).toNat * Nat.pow 10 tens
  let below := if b.narrowBelow then above / 2 else above
  let unit := Nat.pow 2 twos * Nat.pow 10 (place + tens).toNat
  let inside := fun q =>
    let v := q * unit
    if b.mantissa % 2 = 0 then value ≤ v + below && v ≤ value + above
    else value < v + below && v < value + above
  let low := value / unit
  let lowGap := value - low * unit
  let highGap := (low + 1) * unit - value
  if inside low && inside (low + 1) then
    if lowGap < highGap || (lowGap = highGap && low % 2 = 0) then some ⟨low, place⟩
    else some ⟨low + 1, place⟩
  else if inside low then some ⟨low, place⟩
  else if inside (low + 1) then some ⟨low + 1, place⟩
  else none

/-- The first hit among the grids of `n, n + 1, …` digits. -/
def Binary.search (b : Binary) (scale : Int) : (fuel n : Nat) → Decimal
  | 0, _ =>
    if 0 ≤ b.exponent then ⟨b.mantissa * Nat.pow 2 b.exponent.toNat, 0⟩
    else ⟨b.mantissa * Nat.pow 5 (-b.exponent).toNat, b.exponent⟩
  | fuel + 1, n =>
    match b.withDigits? scale n with
    | some d => d
    | none => b.search scale fuel (n + 1)

/-- Drops trailing zeros. -/
def Decimal.strip : (fuel : Nat) → Decimal → Decimal
  | 0, d => d
  | fuel + 1, d =>
    if d.digits ≠ 0 && d.digits % 10 = 0 then strip fuel ⟨d.digits / 10, d.exponent + 1⟩ else d

/-- The shortest decimal of a finite number's magnitude. -/
def shortest (x : Float) : Decimal :=
  let b := Binary.ofFloat x
  if b.mantissa = 0 then ⟨0, 0⟩
  else
    let num := b.mantissa * Nat.pow 2 b.exponent.toNat
    let den := Nat.pow 2 (-b.exponent).toNat
    (b.search (scaleOf num den) 17 1).strip 20

/-- The decimal text of a number: positional between `10 ^ -4` and `10 ^ 16`, with at least one
digit after the point; otherwise with a signed exponent of at least two digits. -/
def render (x : Float) : String :=
  if x.isNaN then "nan"
  else
    let sign := if isNegative x then "-" else ""
    if x.isInf then sign ++ "inf"
    else
      let d := shortest x
      let digits := (Nat.toDigits 10 d.digits)
      let point : Int := d.exponent + digits.length
      if d.digits = 0 then sign ++ "0.0"
      else if -4 < point && point ≤ 16 then
        if point ≤ 0 then
          sign ++ "0." ++ String.ofList (List.replicate (-point).toNat '0' ++ digits)
        else if digits.length ≤ point.toNat then
          sign ++ String.ofList (digits ++ List.replicate (point.toNat - digits.length) '0') ++ ".0"
        else
          sign ++ String.ofList (digits.take point.toNat) ++ "." ++
            String.ofList (digits.drop point.toNat)
      else
        let e := point - 1
        let mark := if e < 0 then "e-" else "e+"
        let size := Nat.toDigits 10 e.natAbs
        let padded := if size.length < 2 then '0' :: size else size
        let tail := if digits.length = 1 then [] else '.' :: digits.drop 1
        sign ++ String.ofList (digits.take 1 ++ tail) ++ mark ++ String.ofList padded

end TemplateTidy.Number
