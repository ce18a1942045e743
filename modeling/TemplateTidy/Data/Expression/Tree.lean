import TemplateTidy.Data.Expression.Token

/-! # Trees of data expressions

`parse?` makes a tree of the tokens of an expression.  An expression may use the text that it is itself
written in, may strip a text, and may set an option.  Other names, calls, attributes and subscripts can
be written but have no value, so the tree does not tell them apart. -/

namespace TemplateTidy.Data.Expression

/-- Operators with one operand. -/
inductive Unary where
  | plus
  | minus
  | complement
  | negation
deriving DecidableEq, Repr

/-- Operators with two operands. -/
inductive Binary where
  | add
  | sub
  | mul
  | div
  | floorDiv
  | mod
  | pow
  | bitAnd
  | bitOr
  | bitXor
  | shiftLeft
  | shiftRight
  | matrix
deriving DecidableEq, Repr

inductive Comparison where
  | eq
  | ne
  | lt
  | le
  | gt
  | ge
  | isIn
  | notIn
  | isSame
  | notSame
deriving DecidableEq, Repr

inductive Expr where
  | lit (v : Value)
  /-- The text of the whole expression. -/
  | contents
  /-- A text without blanks at its ends. -/
  | strip (a : Expr)
  /-- An option is set; the value is null. -/
  | assign (name value : Expr)
  /-- Something that has no value here. -/
  | unknown
  | unary (op : Unary) (a : Expr)
  | binary (op : Binary) (a b : Expr)
  | both (a b : Expr)
  | either (a b : Expr)
  | chain (a : Expr) (rest : List (Comparison × Expr))
  | choice (condition yes no : Expr)
  | list (xs : List Expr)
  | tuple (xs : List Expr)
  | set (xs : List Expr)
  | dict (entries : List (Expr × Expr))
deriving Repr

mutual

/-- Whether an expression is made of literals and operators alone. -/
def Expr.isFixed : Expr → Bool
  | .lit _ => true
  | .unary _ a => a.isFixed
  | .binary _ a b => a.isFixed && b.isFixed
  | .tuple xs => areFixed xs
  | _ => false

/-- Whether all expressions are made of literals and operators alone. -/
def areFixed : List Expr → Bool
  | [] => true
  | x :: rest => x.isFixed && areFixed rest

end

/-- The operators of each level, the loosest first. -/
def operators : List (List (String × Binary)) :=
  [[("|", .bitOr)], [("^", .bitXor)], [("&", .bitAnd)], [("<<", .shiftLeft), (">>", .shiftRight)],
    [("+", .add), ("-", .sub)],
    [("*", .mul), ("/", .div), ("//", .floorDiv), ("%", .mod), ("@", .matrix)]]

/-- The comparison at the beginning of some tokens. -/
def comparison? : List Token → Option (Comparison × List Token)
  | .mark m :: rest =>
    ([("==", Comparison.eq), ("!=", .ne), ("<", .lt), ("<=", .le), (">", .gt), (">=", .ge)].lookup
      m).map (·, rest)
  | .name "in" :: rest => some (.isIn, rest)
  | .name "not" :: .name "in" :: rest => some (.notIn, rest)
  | .name "is" :: .name "not" :: rest => some (.notSame, rest)
  | .name "is" :: rest => some (.isSame, rest)
  | _ => none

/-- Words that are no names. -/
def keywords : List String :=
  ["and", "as", "assert", "async", "await", "break", "class", "continue", "def", "del", "elif",
    "else", "except", "finally", "for", "from", "global", "if", "import", "in", "is", "lambda",
    "nonlocal", "not", "or", "pass", "raise", "return", "try", "while", "with", "yield"]

def wordValue? : String → Option Value
  | "True" => some (.bool true)
  | "False" => some (.bool false)
  | "None" => some .null
  | _ => none

def joinTexts : List Token → String × List Token
  | .text s :: rest =>
    let (t, rest) := joinTexts rest
    (s ++ t, rest)
  | rest => ("", rest)

mutual

/-- A conditional or what is looser than any operator. -/
def expr? : (fuel : Nat) → List Token → Option (Expr × List Token)
  | 0, _ => none
  | fuel + 1, ts =>
    match disjunction? fuel ts with
    | some (yes, .name "if" :: rest) =>
      match disjunction? fuel rest with
      | some (condition, .name "else" :: rest) =>
        (expr? fuel rest).map fun (no, rest) => (.choice condition yes no, rest)
      | _ => none
    | other => other

/-- Operands of `or`. -/
def disjunction? : (fuel : Nat) → List Token → Option (Expr × List Token)
  | 0, _ => none
  | fuel + 1, ts =>
    match conjunction? fuel ts with
    | some (a, .name "or" :: rest) =>
      (disjunction? fuel rest).map fun (b, rest) => (.either a b, rest)
    | other => other

/-- Operands of `and`. -/
def conjunction? : (fuel : Nat) → List Token → Option (Expr × List Token)
  | 0, _ => none
  | fuel + 1, ts =>
    match inversion? fuel ts with
    | some (a, .name "and" :: rest) =>
      (conjunction? fuel rest).map fun (b, rest) => (.both a b, rest)
    | other => other

/-- An operand after `not`. -/
def inversion? : (fuel : Nat) → List Token → Option (Expr × List Token)
  | 0, _ => none
  | fuel + 1, .name "not" :: rest =>
    (inversion? fuel rest).map fun (a, rest) => (.unary .negation a, rest)
  | fuel + 1, ts =>
    match operation? fuel operators ts with
    | none => none
    | some (a, rest) =>
      match comparisons? fuel rest with
      | none => none
      | some ([], rest) => some (a, rest)
      | some (more, rest) => some (.chain a more, rest)

def comparisons? : (fuel : Nat) → List Token → Option (List (Comparison × Expr) × List Token)
  | 0, _ => none
  | fuel + 1, ts =>
    match comparison? ts with
    | none => some ([], ts)
    | some (op, rest) =>
      match operation? fuel operators rest with
      | none => none
      | some (b, rest) => (comparisons? fuel rest).map fun (more, rest) => ((op, b) :: more, rest)

/-- Operands of the operators of some levels. -/
def operation? : (fuel : Nat) → List (List (String × Binary)) → List Token →
    Option (Expr × List Token)
  | 0, _, _ => none
  | fuel + 1, [], ts => factor? fuel ts
  | fuel + 1, level :: tighter, ts =>
    match operation? fuel tighter ts with
    | none => none
    | some (a, rest) => operands? fuel level tighter a rest

/-- More operands of the operators of one level. -/
def operands? : (fuel : Nat) → List (String × Binary) → List (List (String × Binary)) → Expr →
    List Token → Option (Expr × List Token)
  | 0, _, _, _, _ => none
  | fuel + 1, level, tighter, a, ts =>
    match ts with
    | .mark m :: rest =>
      match level.lookup m with
      | none => some (a, ts)
      | some op =>
        match operation? fuel tighter rest with
        | none => none
        | some (b, rest) => operands? fuel level tighter (.binary op a b) rest
    | _ => some (a, ts)

/-- An operand with signs. -/
def factor? : (fuel : Nat) → List Token → Option (Expr × List Token)
  | 0, _ => none
  | fuel + 1, .mark "+" :: rest => (factor? fuel rest).map fun (a, rest) => (.unary .plus a, rest)
  | fuel + 1, .mark "-" :: rest => (factor? fuel rest).map fun (a, rest) => (.unary .minus a, rest)
  | fuel + 1, .mark "~" :: rest =>
    (factor? fuel rest).map fun (a, rest) => (.unary .complement a, rest)
  | fuel + 1, ts =>
    match primary? fuel ts with
    | some (a, .mark "**" :: rest) =>
      (factor? fuel rest).map fun (b, rest) => (.binary .pow a b, rest)
    | other => other

/-- An operand without signs. -/
def primary? : (fuel : Nat) → List Token → Option (Expr × List Token)
  | 0, _ => none
  | fuel + 1, ts =>
    match atom? fuel ts with
    | none => none
    | some (a, rest) => trailers? fuel a rest

/-- Attributes, calls and subscripts after an operand. -/
def trailers? : (fuel : Nat) → Expr → List Token → Option (Expr × List Token)
  | 0, _, _ => none
  | fuel + 1, a, ts =>
    match ts with
    | .mark "." :: .name "strip" :: .mark "(" :: .mark ")" :: rest => trailers? fuel (.strip a) rest
    | .mark "." :: .name _ :: rest => trailers? fuel .unknown rest
    | .mark "(" :: rest =>
      match arguments? fuel ")" rest with
      | none => none
      | some rest => trailers? fuel .unknown rest
    | .mark "[" :: rest =>
      match arguments? fuel "]" rest with
      | none => none
      | some rest => trailers? fuel .unknown rest
    | _ => some (a, ts)

/-- The rest after the arguments of a call. -/
def arguments? : (fuel : Nat) → String → List Token → Option (List Token)
  | 0, _, _ => none
  | fuel + 1, close, ts =>
    match ts with
    | .mark m :: rest =>
      if m == close then some rest
      else if m ∈ [":", ",", "*", "**"] then arguments? fuel close rest
      else
        match expr? fuel ts with
        | none => none
        | some (_, rest) => arguments? fuel close rest
    | .name _ :: .mark "=" :: rest => arguments? fuel close rest
    | _ =>
      match expr? fuel ts with
      | none => none
      | some (_, rest) => arguments? fuel close rest

/-- A literal, a name or something in brackets. -/
def atom? : (fuel : Nat) → List Token → Option (Expr × List Token)
  | 0, _ => none
  | fuel + 1, ts =>
    match ts with
    | .number v :: rest => some (.lit v, rest)
    | .text _ :: _ =>
      let (s, rest) := joinTexts ts
      some (.lit (.text s), rest)
    | .name "contents" :: rest => some (.contents, rest)
    | .name "setattr" :: .mark "(" :: .name "config" :: .mark "," :: rest =>
      match items? fuel ")" rest with
      | some ([name, value], _, rest) => some (.assign name value, rest)
      | some (_, _, rest) => some (.unknown, rest)
      | none => none
    | .name n :: rest =>
      match wordValue? n with
      | some v => some (.lit v, rest)
      | none => if keywords.contains n then none else some (.unknown, rest)
    | .mark "..." :: rest => some (.lit .ellipsis, rest)
    | .mark "(" :: .mark ")" :: rest => some (.tuple [], rest)
    | .mark "(" :: rest =>
      match items? fuel ")" rest with
      | some ([x], false, rest) => some (x, rest)
      | some (xs, _, rest) => some (.tuple xs, rest)
      | none => none
    | .mark "[" :: rest => (items? fuel "]" rest).map fun (xs, _, rest) => (.list xs, rest)
    | .mark "\x7b" :: .mark "\x7d" :: rest => some (.dict [], rest)
    | .mark "\x7b" :: rest =>
      match expr? fuel rest with
      | some (_, .mark ":" :: _) =>
        (entries? fuel rest).map fun (es, rest) => (.dict es, rest)
      | some _ => (items? fuel "\x7d" rest).map fun (xs, _, rest) => (.set xs, rest)
      | none => none
    | _ => none

/-- Expressions between commas up to a closing bracket, and whether a comma was there. -/
def items? : (fuel : Nat) → String → List Token → Option (List Expr × Bool × List Token)
  | 0, _, _ => none
  | fuel + 1, close, ts =>
    match ts with
    | .mark m :: rest =>
      if m == close then some ([], false, rest)
      else someItems? fuel close ts
    | _ => someItems? fuel close ts

/-- Like `items?`, where there is at least one. -/
def someItems? : (fuel : Nat) → String → List Token → Option (List Expr × Bool × List Token)
  | 0, _, _ => none
  | fuel + 1, close, ts =>
    match expr? fuel ts with
    | some (x, .mark m :: rest) =>
      if m == close then some ([x], false, rest)
      else if m == "," then (items? fuel close rest).map fun (xs, _, rest) => (x :: xs, true, rest)
      else none
    | _ => none

/-- The entries of a dictionary up to its closing bracket. -/
def entries? : (fuel : Nat) → List Token → Option (List (Expr × Expr) × List Token)
  | 0, _ => none
  | _ + 1, .mark "\x7d" :: rest => some ([], rest)
  | fuel + 1, ts =>
    match expr? fuel ts with
    | some (k, .mark ":" :: rest) =>
      match expr? fuel rest with
      | some (v, .mark "," :: rest) => (entries? fuel rest).map fun (es, rest) => ((k, v) :: es, rest)
      | some (v, .mark "\x7d" :: rest) => some ([(k, v)], rest)
      | _ => none
    | _ => none

end

/-- Expressions between commas at the outside, and whether a comma was there. -/
def topItems? : (fuel : Nat) → List Token → Option (List Expr × Bool × List Token)
  | 0, _ => none
  | fuel + 1, ts =>
    match expr? (40 * (ts.length + 1)) ts with
    | some (x, .mark "," :: rest) =>
      match rest with
      | [] => some ([x], true, [])
      | .lineEnd :: _ => some ([x], true, rest)
      | _ => (topItems? fuel rest).map fun (xs, _, rest) => (x :: xs, true, rest)
    | some (x, rest) => some ([x], false, rest)
    | none => none

/-- Reads an expression. -/
def parse? (s : List Char) : Option Expr := do
  let ts ← tokens? s
  let ts := ts.dropWhile fun t => t matches .lineEnd
  let (xs, comma, rest) ← topItems? (ts.length + 1) ts
  if rest.all fun t => t matches .lineEnd then
    match xs, comma with
    | [x], false => some x
    | xs, _ => some (.tuple xs)
  else none

end TemplateTidy.Data.Expression
