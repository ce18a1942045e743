import TemplateTidy.Failure
import TemplateTidy.Text.Line
import TemplateTidy.Text.Word

/-! # Line forms

A line form is text with fields in braces.  A field names a value, may pick a part of it, may ask for
its quoted form, and may say how wide it is: `{code!r:>20}`.  Doubled braces stand for braces.  Fields
are filled from left to right, so that the first fault decides. -/

namespace TemplateTidy.Report

open Text

def fault {α : Type} (message : String) : Outcome α :=
  .error (.badForm message)

/-- Digits of any script as a number; nothing if there are none or something else stands among them. -/
def placeNumber? (s : List Char) : Option Nat :=
  if s.isEmpty || !s.all isDigit then none
  else some (s.foldl (fun n c => n * 10 + digitValue c) 0)

/-- The greatest number that a form may hold. -/
def greatestNumber : Nat := Nat.pow 2 63 - 1

/-! ### Widths -/

/-- Where text stands in a wider field. -/
inductive Align where
  | left
  | right
  | center
  /-- Between the sign and the digits; no place for text. -/
  | inside
deriving DecidableEq, Repr

def Align.ofChar? : Char → Option Align
  | '<' => some .left
  | '>' => some .right
  | '^' => some .center
  | '=' => some .inside
  | _ => none

/-- How a value is fitted into its field. -/
structure Fit where
  fill : Char := ' '
  align : Option Align := none
  sign : Option Char := none
  coercesZero : Bool := false
  alternate : Bool := false
  width : Nat := 0
  grouping : Option Char := none
  precision : Option Nat := none
  kind : Char := 's'

/-- The digits at the front as a number, with what follows. -/
def leadingNumber (s : List Char) : Outcome (Option Nat × List Char) :=
  let digits := s.takeWhile isDigit
  match placeNumber? digits with
  | none => .ok (none, s)
  | some n =>
    if greatestNumber < n then fault "Too many decimal digits in format string"
    else .ok (some n, s.drop digits.length)

def readAlign (fit : Fit) (s : List Char) : Fit × List Char :=
  match s with
  | c :: a :: rest =>
    match Align.ofChar? a with
    | some align => ({ fit with fill := c, align := some align }, rest)
    | none =>
      match Align.ofChar? c with
      | some align => ({ fit with align := some align }, a :: rest)
      | none => (fit, s)
  | [c] =>
    match Align.ofChar? c with
    | some align => ({ fit with align := some align }, [])
    | none => (fit, s)
  | [] => (fit, [])

/-- Reads the marks before the width; a zero fills with zeros unless another fill is given. -/
def readMarks (filled : Bool) (fit : Fit) (s : List Char) : Fit × List Char :=
  let (fit, s) := match s with
    | c :: rest =>
      if c == '+' || c == '-' || c == ' ' then ({ fit with sign := some c }, rest) else (fit, s)
    | [] => (fit, s)
  let (fit, s) := match s with
    | 'z' :: rest => ({ fit with coercesZero := true }, rest)
    | _ => (fit, s)
  let (fit, s) := match s with
    | '#' :: rest => ({ fit with alternate := true }, rest)
    | _ => (fit, s)
  match s with
  | '0' :: rest => if filled then (fit, s) else ({ fit with fill := '0' }, rest)
  | _ => (fit, s)

def readGrouping (fit : Fit) (s : List Char) : Outcome (Fit × List Char) := do
  let both : Outcome Unit := fault "Cannot specify both ',' and '_'."
  let (fit, s) := match s with
    | ',' :: rest => ({ fit with grouping := some ',' }, rest)
    | _ => (fit, s)
  let (fit, s) ← match s with
    | '_' :: rest => do
      if fit.grouping.isSome then both
      pure ({ fit with grouping := some '_' }, rest)
    | _ => pure (fit, s)
  match s with
  | ',' :: _ =>
    if fit.grouping == some '_' then both
    return (fit, s)
  | _ => return (fit, s)

/-- Reads what is said about the fit of a text. -/
def readFit (spec : List Char) : Outcome Fit := do
  let (fit, s) := readAlign {} spec
  let filled := match spec with
    | _ :: a :: _ => (Align.ofChar? a).isSome
    | _ => false
  let (fit, s) := readMarks filled fit s
  let (width, s) ← leadingNumber s
  let fit := { fit with width := width.getD 0 }
  let (fit, s) ← readGrouping fit s
  let (fit, s) ← match s with
    | '.' :: rest => do
      let (precision, rest) ← leadingNumber rest
      if precision.isNone then fault "Format specifier missing precision"
      pure ({ fit with precision }, rest)
    | _ => pure (fit, s)
  let fit ← match s with
    | [] => pure fit
    | [kind] => pure { fit with kind }
    | _ => fault ("Invalid format specifier '" ++ String.ofList spec ++ "' for object of type 'str'")
  match fit.grouping with
  | some mark =>
    if "defgEG%F\x00".toList.contains fit.kind || (mark == '_' && "boxX".toList.contains fit.kind) then
      return fit
    else fault ("Cannot specify '" ++ String.singleton mark ++ "' with '" ++ shown fit.kind ++ "'.")
  | none => return fit
where
  /-- A character in a message: as it is, or by its number. -/
  shown (c : Char) : String :=
    if 32 < c.toNat && c.toNat < 128 then String.singleton c
    else "\\x" ++ String.ofList (Nat.toDigits 16 c.toNat)

def fitText (spec s : List Char) : Outcome (List Char) := do
  if spec.isEmpty then return s
  let fit ← readFit spec
  if fit.kind != 's' then
    fault ("Unknown format code '" ++ readFit.shown fit.kind ++ "' for object of type 'str'")
  match fit.sign with
  | some ' ' => fault "Space not allowed in string format specifier"
  | some _ => fault "Sign not allowed in string format specifier"
  | none => pure ()
  if fit.coercesZero then
    fault "Negative zero coercion (z) not allowed in string format specifier"
  if fit.alternate then fault "Alternate form (#) not allowed in string format specifier"
  if fit.align == some .inside then fault "'=' alignment not allowed in string format specifier"
  let s := match fit.precision with
    | some n => s.take n
    | none => s
  let room := fit.width - s.length
  let before := match fit.align with
    | some .right => room
    | some .center => room / 2
    | _ => 0
  return List.replicate before fit.fill ++ s ++ List.replicate (room - before) fit.fill

def fitValue (spec : List Char) : Value → Outcome (List Char)
  | .text s => fitText spec s.toList
  | v => if spec.isEmpty then .ok v.render.toList else .error .wrongType

/-! ### Fields -/

structure Field where
  name : List Char
  conversion : Option Char := none
  spec : List Char := []

/-- The end of a form inside a field. -/
def unclosed {α : Type} : Outcome α := fault "expected '\x7d' before end of string"

/-- The name of a field, the character that ends it and what follows.  Brackets hide that character. -/
def readName (inBrackets : Bool) (done : List Char) : List Char → Outcome (List Char × Char × List Char)
  | [] => unclosed
  | c :: rest =>
    if inBrackets then readName (c != ']') (c :: done) rest
    else if c == '\x7b' then fault "unexpected '\x7b' in field name"
    else if c == '\x7d' || c == ':' || c == '!' then .ok (done.reverse, c, rest)
    else readName (c == '[') (c :: done) rest

/-- What stands before the brace that closes `depth` open ones, and what follows it. -/
def readNested (depth : Nat) (done : List Char) : List Char → Option (List Char × List Char)
  | [] => none
  | c :: rest =>
    if c == '\x7b' then readNested (depth + 1) (c :: done) rest
    else if c == '\x7d' then
      match depth with
      | 0 => some (done.reverse, rest)
      | depth + 1 => readNested depth (c :: done) rest
    else readNested depth (c :: done) rest

/-- Reads a field after its opening brace. -/
def readField (s : List Char) : Outcome (Field × List Char) := do
  let (name, stop, rest) ← readName false [] s
  let spec (conversion : Option Char) (s : List Char) : Outcome (Field × List Char) :=
    match readNested 0 [] s with
    | some (spec, rest) => .ok ({ name, conversion, spec }, rest)
    | none => fault "unmatched '\x7b' in format spec"
  if stop == '\x7d' then return ({ name }, rest)
  else if stop == ':' then spec none rest
  else
    match rest with
    | [] => fault "end of string while looking for conversion specifier"
    | [_] => fault "unmatched '\x7b' in format spec"
    | c :: mark :: rest =>
      if mark == '\x7d' then return ({ name, conversion := some c }, rest)
      else if mark == ':' then spec (some c) rest
      else fault "expected ':' after conversion specifier"

/-- The values that a form can name. -/
abbrev Values := List (String × Value)

/-- A part of a value, by what stands after the name: places in brackets and names after dots. -/
def pick (v : Value) : (fuel : Nat) → List Char → Outcome Value
  | 0, _ | _, [] => .ok v
  | _ + 1, '.' :: rest =>
    let name := rest.takeWhile fun c => c != '.' && c != '['
    if name.isEmpty then fault "Empty attribute in format string" else .error .missingOperation
  | fuel + 1, '[' :: rest => do
    let inside := rest.takeWhile (· != ']')
    if inside.length = rest.length then fault "Missing ']' in format string"
    if inside.isEmpty then fault "Empty attribute in format string"
    let after := rest.drop (inside.length + 1)
    match placeNumber? inside with
    | none => .error .wrongType
    | some n =>
      if greatestNumber < n then fault "Too many decimal digits in format string"
      match v with
      | .text s =>
        match s.toList[n]? with
        | some c => pick (.text (String.singleton c)) fuel after
        | none => .error (.noPlace "string index out of range")
      | _ => .error .wrongType
  | _, _ => fault "Only '.' or '[' may follow ']' in format field specifier"

/-- The value of a field; `next` is the number of the next field without a name. -/
def valueOf (values : Values) (next : Nat) (name : List Char) : Outcome Value := do
  let first := name.takeWhile fun c => c != '.' && c != '['
  let path := name.drop first.length
  let absent (n : Nat) : Outcome Value :=
    .error (.noPlace ("Replacement index " ++ toString n ++ " out of range for positional args tuple"))
  if first.isEmpty then absent next
  else
    match placeNumber? first with
    | some n =>
      if greatestNumber < n then fault "Too many decimal digits in format string" else absent n
    | none =>
      match values.lookup (String.ofList first) with
      | some v => pick v path.length path
      | none => .error (.missingKey (.text (String.ofList first)))

/-- Quoted text in which only plain characters stand for themselves. -/
def quoteNarrow (s : String) : String :=
  String.join (s.toList.map fun c =>
    if c.toNat < 128 then String.singleton c
    else if c.toNat < 0x100 then "\\x" ++ Value.hex 2 c.toNat
    else if c.toNat < 0x10000 then "\\u" ++ Value.hex 4 c.toNat
    else "\\U" ++ Value.hex 8 c.toNat)

/-- The form of a value that a conversion asks for. -/
def convert (v : Value) : Option Char → Outcome Value
  | none => .ok v
  | some 's' => .ok (.text v.render)
  | some 'r' => .ok (.text v.inner)
  | some 'a' => .ok (.text (quoteNarrow v.inner))
  | some c =>
    if 32 < c.toNat && c.toNat < 127 then
      fault ("Unknown conversion specifier " ++ String.singleton c)
    else fault ("Unknown conversion specifier \\x" ++ String.ofList (Nat.toDigits 16 c.toNat))

/-! ### Filling -/

/-- Fills a form.  Fields inside the width of a field are `depth` levels deep at most. -/
def fillFrom (values : Values) : (depth fuel : Nat) → List Char → Outcome (List Char)
  | 0, _, _ => fault "Max string recursion exceeded"
  | _, 0, s => .ok s
  | depth + 1, fuel + 1, s => do
    let text := s.takeWhile fun c => c != '\x7b' && c != '\x7d'
    match s.drop text.length with
    | [] => return text
    | '\x7d' :: '\x7d' :: rest =>
      return text ++ '\x7d' :: (← fillFrom values (depth + 1) fuel rest)
    | '\x7b' :: '\x7b' :: rest =>
      return text ++ '\x7b' :: (← fillFrom values (depth + 1) fuel rest)
    | ['\x7b'] => fault "Single '\x7b' encountered in format string"
    | '\x7b' :: rest =>
      let (field, rest) ← readField rest
      let v ← valueOf values 0 field.name
      let v ← convert v field.conversion
      let spec ←
        if field.spec.any fun c => c == '\x7b' || c == '\x7d' then
          fillFrom values depth fuel field.spec
        else pure field.spec
      let shown ← fitValue spec v
      return text ++ shown ++ (← fillFrom values (depth + 1) fuel rest)
    | _ => fault "Single '\x7d' encountered in format string"

def fill (values : Values) (form : List Char) : Outcome (List Char) :=
  fillFrom values 2 (form.length + 1) form

end TemplateTidy.Report
