import TemplateTidy.Data.Json
import TemplateTidy.Text.Word

/-! # JSON with comments, single quotes and bare names

`read?` reads a document of the relaxed form of JSON: comments, text in either quote, names as keys,
commas at the end, hexadecimal numbers and signs.  `render` writes a value in that form, on one line
or with a line for each element. -/

namespace TemplateTidy.Data.Json5

open Text

/-! ### Reading -/

def lineEnd? : List Char → Option (List Char)
  | '\r' :: '\n' :: rest => some rest
  | c :: rest =>
    if c == '\r' || c == '\n' || c == '\u2028' || c == '\u2029' then some rest else none
  | [] => none

/-- A blank that is no line end. -/
def isGap (c : Char) : Bool :=
  c == ' ' || c == '\t' || c == '\x0b' || c == '\x0c' || c == '\u00a0' || c == '\ufeff' ||
    c == '\u1680' || ('\u2000' ≤ c && c ≤ '\u200a') || c == '\u202f' || c == '\u205f' ||
    c == '\u3000'

/-- The rest after the end of a block comment. -/
def blockEnd? : List Char → Option (List Char)
  | '*' :: '/' :: rest => some rest
  | _ :: rest => blockEnd? rest
  | [] => none

/-- The rest from the next line end on. -/
def dropLine : List Char → List Char
  | [] => []
  | c :: rest => if (lineEnd? (c :: rest)).isSome then c :: rest else dropLine rest

/-- Drops blanks, line ends and comments. -/
def skipGap : (fuel : Nat) → List Char → List Char
  | 0, s => s
  | fuel + 1, s =>
    match s with
    | '/' :: '/' :: rest => skipGap fuel (dropLine rest)
    | '/' :: '*' :: rest =>
      match blockEnd? rest with
      | some rest => skipGap fuel rest
      | none => s
    | c :: rest =>
      if isGap c then skipGap fuel rest
      else match lineEnd? s with
        | some rest => skipGap fuel rest
        | none => s
    | [] => []

/-- Drops blanks, line ends and comments. -/
def skip (s : List Char) : List Char :=
  skipGap s.length s

/-- The character of a code point, which must not be half of a pair. -/
def charOf? (n : Nat) : Option Char :=
  if n.isValidChar then some (Char.ofNat n) else none

def namedEscape? : Char → Option Char
  | 'b' => some '\x08'
  | 'f' => some '\x0c'
  | 'n' => some '\n'
  | 'r' => some '\r'
  | 't' => some '\t'
  | 'v' => some '\x0b'
  | _ => none

/-- The text of an escape after its backslash. -/
def escape? : List Char → Option (List Char × List Char)
  | 'x' :: a :: b :: rest => do
    return ([Char.ofNat ((← hexDigit? a) * 16 + (← hexDigit? b))], rest)
  | 'u' :: rest => do
    let (n, rest) ← Json.hex4? rest
    return ([← charOf? n], rest)
  | '0' :: rest => if rest.head?.any Char.isDigit then none else some (['\x00'], rest)
  | c :: rest =>
    match lineEnd? (c :: rest) with
    | some rest => some ([], rest)
    | none =>
      if c.isDigit || c == 'x' then none
      else some ([(namedEscape? c).getD c], rest)
  | [] => none

/-- The rest of a text after its opening quote; `acc` is reversed. -/
def textBody (quote : Char) : (fuel : Nat) → List Char → List Char → Option (String × List Char)
  | 0, _, _ => none
  | _ + 1, [], _ => none
  | fuel + 1, c :: rest, acc =>
    if c == quote then some (String.ofList acc.reverse, rest)
    else if c == '\\' then
      match escape? rest with
      | some (piece, rest) => textBody quote fuel rest (piece.reverse ++ acc)
      | none => none
    else if (lineEnd? (c :: rest)).isSome then none
    else textBody quote fuel rest (c :: acc)

def text? : List Char → Option (String × List Char)
  | c :: rest => if c == '"' || c == '\'' then textBody c (rest.length + 1) rest [] else none
  | [] => none

/-- The characters of a name, from a place where it may begin or go on. -/
def nameBody : (fuel : Nat) → (first : Bool) → List Char → List Char × List Char
  | 0, _, s => ([], s)
  | fuel + 1, first, s =>
    match s with
    | '\\' :: 'u' :: rest =>
      match Json.hex4? rest with
      | some (n, rest) =>
        match charOf? n with
        | some c =>
          let (tail, rest) := nameBody fuel false rest
          (c :: tail, rest)
        | none => ([], s)
      | none => ([], s)
    | c :: rest =>
      if beginsName c || (!first && (continuesName c || c == '\u200c' || c == '\u200d')) then
        let (tail, rest) := nameBody fuel false rest
        (c :: tail, rest)
      else ([], s)
    | [] => ([], [])

def name? (s : List Char) : Option (String × List Char) :=
  match nameBody (s.length + 1) true s with
  | ([], _) => none
  | (name, rest) => some (String.ofList name, rest)

/-- Digits after a mark. -/
def fraction? : List Char → Option (List Char × List Char)
  | '.' :: rest => some (rest.takeWhile Char.isDigit, rest.dropWhile Char.isDigit)
  | _ => none

/-- A power of ten: whether it is negative, and its digits. -/
def power? : List Char → Option (Bool × List Char × List Char)
  | e :: rest =>
    if e == 'e' || e == 'E' then
      let (negative, rest) := match rest with
        | '+' :: rest => (false, rest)
        | '-' :: rest => (true, rest)
        | _ => (false, rest)
      some (negative, rest.takeWhile Char.isDigit, rest.dropWhile Char.isDigit)
    else none
  | [] => none

/-- The value of an unsigned decimal number; none if digits are missing. -/
def decimalValue? (whole : Option (List Char)) (fraction : Option (List Char))
    (power : Option (Bool × List Char)) : Option Value :=
  let digits := whole.getD [] ++ fraction.getD []
  match fraction, power with
  | none, none =>
    if Value.mostDigits < digits.length then none else some (.int (Json.natOf digits))
  | _, some (_, []) => none
  | _, _ =>
    if digits.isEmpty then none
    else
      let e : Int := match power with
        | some (negative, ds) => if negative then -(Json.natOf ds : Int) else Json.natOf ds
        | none => 0
      some (.float (Json.floatOf false (Json.natOf digits) (e - (fraction.getD []).length)))

/-- The whole part of a decimal number. -/
def whole? (s : List Char) : Option (List Char × List Char) :=
  match s.takeWhile Char.isDigit with
  | [] => none
  | ds => if ds.head? == some '0' && 1 < ds.length then none else some (ds, s.dropWhile Char.isDigit)

/-- An unsigned decimal number: its value, if it has one, and what follows it. -/
def decimal? (s : List Char) : Option (Option Value × List Char) :=
  let whole := whole? s
  let rest := match whole with
    | some (_, rest) => rest
    | none => s
  let fraction := fraction? rest
  if whole.isNone && fraction.isNone then none
  else
    let rest := match fraction with
      | some (_, rest) => rest
      | none => rest
    let power := power? rest
    let rest := match power with
      | some (_, _, rest) => rest
      | none => rest
    if (name? rest).isSome then none
    else some (decimalValue? (whole.map (·.1)) (fraction.map (·.1))
      (power.map fun (n, ds, _) => (n, ds)), rest)

def hex? : List Char → Option (Nat × List Char)
  | '0' :: x :: rest =>
    let ds := rest.takeWhile fun c => (hexDigit? c).isSome
    if (x == 'x' || x == 'X') && !ds.isEmpty then
      some (ds.foldl (fun n d => n * 16 + (hexDigit? d).getD 0) 0, rest.drop ds.length)
    else none
  | _ => none

/-- Changes the sign of a number. -/
def negate : Value → Value
  | .int i => .int (-i)
  | .float x => .float (-x)
  | v => v

/-- A number with signs.  One minus sign may stand before a decimal number or a name; before a
hexadecimal one, or after another minus sign, it has no value. -/
def number? : (fuel : Nat) → (minus : Nat) → List Char → Option (Option Value × List Char)
  | 0, _, _ => none
  | fuel + 1, minus, s =>
    let signed (v : Option Value) : Option Value :=
      match minus with
      | 0 => v
      | 1 => v.map negate
      | _ => none
    match s with
    | '-' :: rest => number? fuel (minus + 1) rest
    | '+' :: rest => number? fuel minus rest
    | _ =>
      match decimal? s with
      | some (v, rest) => some (signed v, rest)
      | none =>
        match hex? s with
        | some (n, rest) => some (if minus = 0 then some (.int n) else none, rest)
        | none =>
          if let some rest := Json.word? "Infinity" s then
            some (signed (some (.float (1.0 / 0.0))), rest)
          else if let some rest := Json.word? "NaN" s then
            some (signed (some (.float (0.0 / 0.0))), rest)
          else none

mutual

def value? : (fuel : Nat) → List Char → Option (Value × List Char)
  | 0, _ => none
  | fuel + 1, s =>
    if let some rest := Json.word? "null" s then some (.null, rest)
    else if let some rest := Json.word? "true" s then some (.bool true, rest)
    else if let some rest := Json.word? "false" s then some (.bool false, rest)
    else match s with
      | '{' :: rest =>
        match skip rest with
        | '}' :: rest => some (.dict [], rest)
        | rest => (members? fuel rest []).map fun (es, rest) => (.dict es, rest)
      | '[' :: rest =>
        match skip rest with
        | ']' :: rest => some (.list [], rest)
        | rest => (elements? fuel rest).map fun (xs, rest) => (.list xs, rest)
      | _ =>
        match text? s with
        | some (t, rest) => some (.text t, rest)
        | none =>
          match number? (s.length + 1) 0 s with
          | some (some v, rest) => some (v, rest)
          | _ => none

/-- The elements of an array up to its end. -/
def elements? : (fuel : Nat) → List Char → Option (List Value × List Char)
  | 0, _ => none
  | fuel + 1, s =>
    match value? fuel s with
    | none => none
    | some (x, rest) =>
      match skip rest with
      | ',' :: rest =>
        match skip rest with
        | ']' :: rest => some ([x], rest)
        | rest => (elements? fuel rest).map fun (xs, rest) => (x :: xs, rest)
      | ']' :: rest => some ([x], rest)
      | _ => none

/-- The members of an object up to its end. -/
def members? : (fuel : Nat) → List Char → List (Value × Value) →
    Option (List (Value × Value) × List Char)
  | 0, _, _ => none
  | fuel + 1, s, acc =>
    match (text? s).or (name? s) with
    | none => none
    | some (key, rest) =>
      match skip rest with
      | ':' :: rest =>
        match value? fuel (skip rest) with
        | none => none
        | some (v, rest) =>
          let acc := Value.put acc (.text key) v
          match skip rest with
          | ',' :: rest =>
            match skip rest with
            | '}' :: rest => some (acc, rest)
            | rest => members? fuel rest acc
          | '}' :: rest => some (acc, rest)
          | _ => none
      | _ => none

end

def read? (s : List Char) : Option Value :=
  match value? (2 * s.length + 2) (skip s) with
  | some (v, rest) => if (skip rest).isEmpty then some v else none
  | none => none

/-! ### Writing -/

/-- Words that are no bare keys. -/
def reserved : List String :=
  ["break", "case", "catch", "class", "const", "continue", "debugger", "default", "delete", "do",
    "else", "enum", "export", "extends", "false", "finally", "for", "function", "if", "import", "in",
    "instanceof", "new", "null", "return", "super", "switch", "this", "throw", "true", "try",
    "typeof", "var", "void", "while", "with"]

/-- Whether a key is written without quotes. -/
def isBare (key : String) : Bool :=
  match key.toList with
  | [] => false
  | c :: rest => beginsName c && rest.all continuesName && !reserved.contains key

def quoteChar : Char → List Char
  | '\\' => "\\\\".toList
  | '"' => "\\\"".toList
  | '\u2028' => "\\u2028".toList
  | '\u2029' => "\\u2029".toList
  | '\n' => "\\n".toList
  | '\r' => "\\r".toList
  | '\x08' => "\\b".toList
  | '\x0c' => "\\f".toList
  | '\t' => "\\t".toList
  | '\x0b' => "\\v".toList
  | '\x00' => "\\0".toList
  | c => [c]

def quote (s : String) : String :=
  "\"" ++ String.ofList (s.toList.flatMap quoteChar) ++ "\""

/-- A floating-point number; the infinities and the undefined value have names. -/
def renderFloat (x : Float) : String :=
  if x.isNaN then "NaN"
  else if x.isInf then (if x < 0 then "-Infinity" else "Infinity")
  else Number.render x

/-- What stands between the parts of a container at a depth: after its opening bracket, after each
comma, and before its closing bracket.  Without a unit all stands on one line. -/
def gaps (unit : Option (List Char)) (depth : Nat) : String × String × String :=
  match unit with
  | none => ("", ", ", "")
  | some u =>
    let line (n : Nat) : String := "\n" ++ String.ofList (List.replicate n u).flatten
    (line (depth + 1), "," ++ line (depth + 1), line depth)

mutual

/-- The text of a value at a depth. -/
def renderAt (unit : Option (List Char)) (depth : Nat) : Value → String
  | .null | .ellipsis => "null"
  | .bool b => if b then "true" else "false"
  | .int i => toString i
  | .float x => renderFloat x
  | .text s | .moment s => quote s
  | .list xs | .tuple xs | .set xs =>
    if xs.isEmpty then "[]"
    else
      let (first, between, last) := gaps unit depth
      "[" ++ first ++ String.intercalate between (renderAll unit (depth + 1) xs) ++ last ++ "]"
  | .dict entries =>
    if entries.isEmpty then "\x7b\x7d"
    else
      let (first, between, last) := gaps unit depth
      "\x7b" ++ first ++ String.intercalate between (renderEntries unit (depth + 1) entries) ++
        last ++ "\x7d"

/-- The texts of elements at a depth. -/
def renderAll (unit : Option (List Char)) (depth : Nat) : List Value → List String
  | [] => []
  | x :: rest => renderAt unit depth x :: renderAll unit depth rest

def renderEntries (unit : Option (List Char)) (depth : Nat) : List (Value × Value) → List String
  | [] => []
  | (k, v) :: rest =>
    let key := k.render
    ((if isBare key then key else quote key) ++ ": " ++ renderAt unit depth v) ::
      renderEntries unit depth rest

end

/-- The text of a value: on one line, or indented by a unit. -/
def render (unit : Option (List Char)) (v : Value) : String :=
  renderAt unit 0 v

end TemplateTidy.Data.Json5
