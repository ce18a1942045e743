import TemplateTidy.Text.Word
import TemplateTidy.Value

/-! # Strict JSON

The reader of settings files in JSON.  The three names for numbers that are not finite are read too,
and of two entries with one key the later wins at the place of the first. -/

namespace TemplateTidy.Data.Json

/-- The blanks between tokens. -/
def isGap (c : Char) : Bool :=
  c == ' ' || c == '\t' || c == '\n' || c == '\r'

/-- Drops blanks. -/
def skipGap (s : List Char) : List Char :=
  s.dropWhile isGap

/-- The value of four hexadecimal digits. -/
def hex4? : List Char → Option (Nat × List Char)
  | a :: b :: c :: d :: rest => do
    let n := (← Text.hexDigit? a) * 4096 + (← Text.hexDigit? b) * 256 + (← Text.hexDigit? c) * 16 + (← Text.hexDigit? d)
    return (n, rest)
  | _ => none

/-- Whether a 16-bit unit opens a pair. -/
def isHigh (n : Nat) : Bool :=
  0xD800 ≤ n && n < 0xDC00

/-- Whether a 16-bit unit closes a pair. -/
def isLow (n : Nat) : Bool :=
  0xDC00 ≤ n && n < 0xE000

/-- The character that a plain escape stands for. -/
def escaped? : Char → Option Char
  | '"' => some '"'
  | '\\' => some '\\'
  | '/' => some '/'
  | 'b' => some '\x08'
  | 'f' => some '\x0c'
  | 'n' => some '\n'
  | 'r' => some '\r'
  | 't' => some '\t'
  | _ => none

/-- The rest of a text literal after its opening quote; `acc` is reversed. -/
def textBody : (fuel : Nat) → List Char → List Char → Option (String × List Char)
  | 0, _, _ => none
  | _ + 1, [], _ => none
  | fuel + 1, c :: rest, acc =>
    if c == '"' then some (String.ofList acc.reverse, rest)
    else if c == '\\' then
      match rest with
      | 'u' :: rest =>
        match hex4? rest with
        | none => none
        | some (n, rest) =>
          if isHigh n then
            match rest with
            | '\\' :: 'u' :: low =>
              match hex4? low with
              | some (m, rest') =>
                if isLow m then
                  textBody fuel rest' (Char.ofNat (0x10000 + (n - 0xD800) * 1024 + (m - 0xDC00)) :: acc)
                else textBody fuel rest ('�' :: acc)
              | none => none
            | _ => textBody fuel rest ('�' :: acc)
          else textBody fuel rest (Char.ofNat n :: acc)
      | e :: rest =>
        match escaped? e with
        | some d => textBody fuel rest (d :: acc)
        | none => none
      | [] => none
    else if c.toNat < 32 then none
    else textBody fuel rest (c :: acc)

/-- The number of a run of digits. -/
def natOf (digits : List Char) : Nat :=
  digits.foldl (fun n d => n * 10 + (d.toNat - '0'.toNat)) 0

/-- The floating-point number `mantissa * 10 ^ exponent`. -/
def floatOf (negative : Bool) (mantissa : Nat) (exponent : Int) : Float :=
  let x := if exponent < 0 then Float.ofScientific mantissa true exponent.natAbs
    else Float.ofScientific mantissa false exponent.natAbs
  if negative then -x else x

def number? (s : List Char) : Option (Value × List Char) :=
  let (negative, s) := match s with
    | '-' :: rest => (true, rest)
    | _ => (false, s)
  let whole := s.takeWhile Char.isDigit
  if whole.isEmpty then none
  else
    let whole := if whole.head? == some '0' then ['0'] else whole
    let rest := s.drop whole.length
    let (fraction, rest) := match rest with
      | '.' :: tail =>
        let digits := tail.takeWhile Char.isDigit
        if digits.isEmpty then (none, rest) else (some digits, tail.drop digits.length)
      | _ => (none, rest)
    let (exponent, rest) := match rest with
      | e :: tail =>
        if e == 'e' || e == 'E' then
          let (down, digits) := match tail with
            | '-' :: t => (true, t)
            | '+' :: t => (false, t)
            | t => (false, t)
          let ds := digits.takeWhile Char.isDigit
          if ds.isEmpty then (none, rest)
          else (some (if down then -(natOf ds : Int) else (natOf ds : Int)), digits.drop ds.length)
        else (none, rest)
      | [] => (none, rest)
    if fraction.isNone && exponent.isNone then
      let n : Int := natOf whole
      some (.int (if negative then -n else n), rest)
    else
      let digits := whole ++ fraction.getD []
      let e := exponent.getD 0 - ((fraction.getD []).length : Int)
      some (.float (floatOf negative (natOf digits) e), rest)

def word? (word : String) (s : List Char) : Option (List Char) :=
  let w := word.toList
  if w.isPrefixOf s then some (s.drop w.length) else none

mutual

/-- Reads a value that begins at once. -/
def value? : (fuel : Nat) → List Char → Option (Value × List Char)
  | 0, _ => none
  | fuel + 1, s =>
    match s with
    | '"' :: rest => (textBody (rest.length + 1) rest []).map fun (t, rest) => (.text t, rest)
    | '[' :: rest =>
      match skipGap rest with
      | ']' :: rest => some (.list [], rest)
      | rest => (elements? fuel rest).map fun (xs, rest) => (.list xs, rest)
    | '{' :: rest =>
      match skipGap rest with
      | '}' :: rest => some (.dict [], rest)
      | rest => (members? fuel rest []).map fun (es, rest) => (.dict es, rest)
    | _ =>
      if let some rest := word? "null" s then some (.null, rest)
      else if let some rest := word? "true" s then some (.bool true, rest)
      else if let some rest := word? "false" s then some (.bool false, rest)
      else if let some rest := word? "NaN" s then some (.float (0.0 / 0.0), rest)
      else if let some rest := word? "Infinity" s then some (.float (1.0 / 0.0), rest)
      else if let some rest := word? "-Infinity" s then some (.float (-1.0 / 0.0), rest)
      else number? s

/-- Reads the elements of an array up to its end. -/
def elements? : (fuel : Nat) → List Char → Option (List Value × List Char)
  | 0, _ => none
  | fuel + 1, s =>
    match value? fuel (skipGap s) with
    | none => none
    | some (x, rest) =>
      match skipGap rest with
      | ',' :: rest => (elements? fuel rest).map fun (xs, rest) => (x :: xs, rest)
      | ']' :: rest => some ([x], rest)
      | _ => none

/-- Reads the members of an object up to its end. -/
def members? : (fuel : Nat) → List Char → List (Value × Value) →
    Option (List (Value × Value) × List Char)
  | 0, _, _ => none
  | fuel + 1, s, acc =>
    match skipGap s with
    | '"' :: rest =>
      match textBody (rest.length + 1) rest [] with
      | none => none
      | some (key, rest) =>
        match skipGap rest with
        | ':' :: rest =>
          match value? fuel (skipGap rest) with
          | none => none
          | some (v, rest) =>
            let acc := Value.put acc (.text key) v
            match skipGap rest with
            | ',' :: rest => members? fuel rest acc
            | '}' :: rest => some (acc, rest)
            | _ => none
        | _ => none
    | _ => none

end

def read? (s : List Char) : Option Value :=
  match value? (2 * s.length + 2) (skipGap s) with
  | some (v, rest) => if (skipGap rest).isEmpty then some v else none
  | none => none

end TemplateTidy.Data.Json
