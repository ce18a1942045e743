import TemplateTidy.Data.Json
import TemplateTidy.Text.Case
import TemplateTidy.Text.Line
import TemplateTidy.Text.Word

/-! # Tokens of data expressions

`tokens?` cuts a text into numbers, texts, names and marks.  The end of a line is a token outside
brackets only, and a line outside brackets may not be indented. -/

namespace TemplateTidy.Data.Expression

open Text

inductive Token where
  | number (v : Value)
  | text (s : String)
  | name (s : String)
  | mark (s : String)
  /-- The end of a line outside brackets. -/
  | lineEnd
deriving Repr

/-- Digits of a base, where single underscores may stand between digits; none if there are none. -/
def digits? (base : Nat) (s : List Char) : Option (List Nat × List Char) :=
  let digit (c : Char) : Option Nat := (hexDigit? c).filter (· < base)
  let rec go : List Char → List Nat → List Nat × List Char
    | c :: rest, acc =>
      match digit c with
      | some d => go rest (d :: acc)
      | none =>
        match c, rest with
        | '_', e :: rest' =>
          match digit e with
          | some d => go rest' (d :: acc)
          | none => (acc, c :: rest)
        | _, _ => (acc, c :: rest)
    | [], acc => (acc, [])
  match s.head?.bind digit with
  | none => none
  | some _ =>
    let (ds, rest) := go s []
    some (ds.reverse, rest)

/-- The number of a run of digits. -/
def valueOf (base : Nat) (digits : List Nat) : Nat :=
  digits.foldl (fun n d => n * base + d) 0

/-- The base that a letter after a zero names. -/
def baseOf : Char → Option Nat
  | 'x' | 'X' => some 16
  | 'o' | 'O' => some 8
  | 'b' | 'B' => some 2
  | _ => none

def exponent? : List Char → Option (Int × List Char)
  | e :: rest =>
    if e == 'e' || e == 'E' then
      let (negative, rest) := match rest with
        | '+' :: rest => (false, rest)
        | '-' :: rest => (true, rest)
        | _ => (false, rest)
      (digits? 10 rest).map fun (ds, rest) =>
        ((if negative then -(valueOf 10 ds : Int) else valueOf 10 ds), rest)
    else none
  | [] => none

def decimal? (s : List Char) : Option (Value × List Char) :=
  let whole := digits? 10 s
  let rest := match whole with
    | some (_, rest) => rest
    | none => s
  let (fraction, rest) : Option (List Nat) × List Char := match rest with
    | '.' :: tail =>
      match digits? 10 tail with
      | some (ds, tail) => (some ds, tail)
      | none => if whole.isSome then (some [], tail) else (none, rest)
    | _ => (none, rest)
  if whole.isNone && fraction.isNone then none
  else
    let ds := (whole.map (·.1)).getD []
    let (power, rest) : Option Int × List Char := match exponent? rest with
      | some (e, rest) => (some e, rest)
      | none => (none, rest)
    match fraction, power with
    | none, none =>
      if Value.mostDigits < ds.length || (ds.head? == some 0 && ds.any (· != 0)) then none
      else some (.int (valueOf 10 ds), rest)
    | _, _ =>
      let part := fraction.getD []
      some (.float (Json.floatOf false (valueOf 10 (ds ++ part))
        (power.getD 0 - (part.length : Int))), rest)

def number? (s : List Char) : Option (Value × List Char) :=
  match s with
  | '0' :: mark :: rest =>
    match baseOf mark with
    | some base =>
      let rest := match rest with
        | '_' :: tail => tail
        | _ => rest
      (digits? base rest).map fun (ds, rest) => (.int (valueOf base ds), rest)
    | none => decimal? s
  | _ => decimal? s

/-- The character of an escape by one letter. -/
def plainEscape? : Char → Option Char
  | '\\' => some '\\'
  | '\'' => some '\''
  | '"' => some '"'
  | 'a' => some '\x07'
  | 'b' => some '\x08'
  | 'f' => some '\x0c'
  | 'n' => some '\n'
  | 'r' => some '\r'
  | 't' => some '\t'
  | 'v' => some '\x0b'
  | _ => none

/-- The character of exactly `n` hexadecimal digits. -/
def hexEscape? (n : Nat) (s : List Char) : Option (Char × List Char) := do
  let ds ← (s.take n).mapM hexDigit?
  let code := valueOf 16 ds
  if ds.length = n && code.isValidChar then some (Char.ofNat code, s.drop n) else none

/-- The text of an escape after its backslash; an unknown one stands for itself. -/
def escape? : List Char → Option (List Char × List Char)
  | [] => none
  | '\n' :: rest => some ([], rest)
  | 'x' :: rest => (hexEscape? 2 rest).map fun (c, rest) => ([c], rest)
  | 'u' :: rest => (hexEscape? 4 rest).map fun (c, rest) => ([c], rest)
  | 'U' :: rest => (hexEscape? 8 rest).map fun (c, rest) => ([c], rest)
  | 'N' :: _ => none
  | c :: rest =>
    if '0' ≤ c && c ≤ '7' then
      let ds := ((c :: rest).take 3).takeWhile fun d => '0' ≤ d && d ≤ '7'
      some ([Char.ofNat (ds.foldl (fun n d => n * 8 + (d.toNat - '0'.toNat)) 0)],
        (c :: rest).drop ds.length)
    else
      match plainEscape? c with
      | some d => some ([d], rest)
      | none => some (['\\', c], rest)

/-- The rest of a text after its opening quotes; `acc` is reversed. -/
def textBody (close : List Char) (raw : Bool) : (fuel : Nat) → List Char → List Char →
    Option (List Char × List Char)
  | 0, _, _ => none
  | _ + 1, [], _ => none
  | fuel + 1, c :: rest, acc =>
    if close.isPrefixOf (c :: rest) then some (acc.reverse, (c :: rest).drop close.length)
    else if c == '\\' then
      if raw then
        match rest with
        | d :: rest => textBody close raw fuel rest (d :: '\\' :: acc)
        | [] => none
      else
        match escape? rest with
        | some (piece, rest) => textBody close raw fuel rest (piece.reverse ++ acc)
        | none => none
    else if c == '\n' && close.length = 1 then none
    else textBody close raw fuel rest (c :: acc)

def text? (raw : Bool) (s : List Char) : Option (List Char × List Char) :=
  match s with
  | [] => none
  | q :: rest =>
    if q != '\'' && q != '"' then none
    else if [q, q].isPrefixOf rest then textBody [q, q, q] raw (s.length + 1) (rest.drop 2) []
    else textBody [q] raw (s.length + 1) rest []

/-- What the letters before a text ask for: whether backslashes stand for themselves, and whether
braces have a meaning. -/
def textKind? : String → Option (Bool × Bool)
  | "u" => some (false, false)
  | "r" => some (true, false)
  | "f" => some (false, true)
  | "fr" | "rf" => some (true, true)
  | _ => none

/-- The marks, the longer ones first. -/
def marks : List String :=
  ["**", "//", "<<", ">>", "<=", ">=", "==", "!=", "+", "-", "*", "/", "%", "@", "&", "|", "^", "~",
    "<", ">", "(", ")", "[", "]", "\x7b", "\x7d", ",", ":", "...", ".", "="]

/-- The first mark that a text begins with. -/
def mark? (s : List Char) : Option (String × List Char) :=
  (marks.find? fun m => m.toList.isPrefixOf s).map fun m => (m, s.drop m.length)

/-- The rest of a line outside brackets after the blanks at its beginning; none if it is indented and
neither empty nor a comment.  A form feed starts the line anew. -/
def lineStart? (s : List Char) : Option (List Char) :=
  let rest := s.dropWhile fun c => c == ' ' || c == '\t' || c == '\x0c'
  let blanks := s.take (s.length - rest.length)
  if blanks.getLast?.any (· != '\x0c') && !rest.head?.any fun c => c == '\n' || c == '#' then none
  else some rest

/-- Cuts a text into tokens; `depth` brackets are open. -/
def tokensFrom : (fuel depth : Nat) → List Char → Option (List Token)
  | 0, _, _ => none
  | _ + 1, _, [] => some []
  | fuel + 1, depth, c :: rest =>
    if c == ' ' || c == '\t' || c == '\x0c' then tokensFrom fuel depth rest
    else if c == '\n' then
      if depth = 0 then
        match lineStart? rest with
        | some rest => (tokensFrom fuel depth rest).map (.lineEnd :: ·)
        | none => none
      else tokensFrom fuel depth rest
    else if c == '#' then tokensFrom fuel depth (rest.dropWhile (· != '\n'))
    else if c == '\\' then
      match rest with
      | '\n' :: d :: rest => tokensFrom fuel depth (d :: rest)
      | _ => none
    else if c == '\'' || c == '"' then
      match text? false (c :: rest) with
      | some (t, rest) => (tokensFrom fuel depth rest).map (.text (String.ofList t) :: ·)
      | none => none
    else if c.isDigit || (c == '.' && rest.head?.any Char.isDigit) then
      match number? (c :: rest) with
      | some (v, rest) => (tokensFrom fuel depth rest).map (.number v :: ·)
      | none => none
    else if beginsName c && c != '$' then
      let word := (c :: rest).takeWhile fun d => continuesName d && d != '$'
      let rest := (c :: rest).drop word.length
      if rest.head?.any fun d => d == '\'' || d == '"' then
        match textKind? (String.ofList (lower word)) with
        | some (raw, braces) =>
          match text? raw rest with
          | some (t, rest) =>
            if braces && t.any fun d => d == '{' || d == '}' then none
            else (tokensFrom fuel depth rest).map (.text (String.ofList t) :: ·)
          | none => none
        | none => none
      else (tokensFrom fuel depth rest).map (.name (String.ofList word) :: ·)
    else
      match mark? (c :: rest) with
      | some (m, rest) =>
        let depth := if m ∈ ["(", "[", "\x7b"] then depth + 1
          else if m ∈ [")", "]", "\x7d"] then depth - 1 else depth
        (tokensFrom fuel depth rest).map (.mark m :: ·)
      | none => none

/-- Cuts a text into tokens.  Blanks before the first line do not count, and all line ends are the
same. -/
def tokens? (s : List Char) : Option (List Token) :=
  if s.contains '\x00' then none
  else
    let s := (unifyLineEnds s).dropWhile fun c => c == ' ' || c == '\t'
    (lineStart? s).bind (tokensFrom (s.length + 1) 0)

end TemplateTidy.Data.Expression
