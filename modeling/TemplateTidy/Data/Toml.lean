import TemplateTidy.Data.Json

/-! # TOML

The reader of settings files in TOML.  A document is a list of statements: a table header, the header
of a table in an array, or a key with its value.  `Draft` is what the statements so far have built,
with the keys that may not be opened again and those whose contents may not change. -/

namespace TemplateTidy.Data.Toml

abbrev Key := List String

abbrev Entries := List (Value × Value)

/-- A reader of the beginning of a text. -/
abbrev Reader (α : Type) := List Char → Option (α × List Char)

/-- The blanks within a line. -/
def isGap (c : Char) : Bool :=
  c == ' ' || c == '\t'

/-- Control characters other than the tab. -/
def isControl (c : Char) : Bool :=
  (c.toNat < 32 && c != '\t') || c.toNat == 127

/-- Drops blanks within a line. -/
def skipGap (s : List Char) : List Char :=
  s.dropWhile isGap

def skipComment (s : List Char) : Option (List Char) :=
  match s with
  | '#' :: rest =>
    let body := rest.takeWhile (· != '\n')
    if body.any isControl then none else some (rest.drop body.length)
  | _ => some s

/-- Drops blanks, line ends and comments. -/
def skipLines : (fuel : Nat) → List Char → Option (List Char)
  | 0, s => some s
  | fuel + 1, s =>
    let t := s.dropWhile fun c => isGap c || c == '\n'
    match t with
    | '#' :: _ => (skipComment t).bind (skipLines fuel)
    | _ => some t

def isBare (c : Char) : Bool :=
  c.isAlphanum || c == '-' || c == '_'

def hexNumber? (digits : List Char) : Option Nat :=
  digits.foldlM (fun n d => (Text.hexDigit? d).map (n * 16 + ·)) 0

def codePoint (n : Nat) : Reader Char := fun s => do
  let digits := s.take n
  if digits.length ≠ n then none
  let v ← hexNumber? digits
  if v < 0xD800 || (0xE000 ≤ v && v < 0x110000) then some (Char.ofNat v, s.drop n) else none

/-- The character that a plain escape stands for. -/
def escaped? : Char → Option Char
  | 'b' => some '\x08'
  | 't' => some '\t'
  | 'n' => some '\n'
  | 'f' => some '\x0c'
  | 'r' => some '\r'
  | '"' => some '"'
  | '\\' => some '\\'
  | _ => none

/-- Reads what follows a backslash. -/
def escape (multiline : Bool) : Reader (List Char) := fun s =>
  match s with
  | 'u' :: rest => (codePoint 4 rest).map fun (c, rest) => ([c], rest)
  | 'U' :: rest => (codePoint 8 rest).map fun (c, rest) => ([c], rest)
  | c :: rest =>
    if multiline && (isGap c || c == '\n') then
      let skip := fun (t : List Char) => t.dropWhile fun c => isGap c || c == '\n'
      if c == '\n' then some ([], skip rest)
      else match skipGap rest with
        | [] => some ([], [])
        | '\n' :: rest => some ([], skip rest)
        | _ => none
    else (escaped? c).map fun d => ([d], rest)
  | [] => none

/-- Reads the rest of a text in double quotes; `acc` is reversed. -/
def basicBody (multiline : Bool) : (fuel : Nat) → List Char → List Char →
    Option (List Char × List Char)
  | 0, _, _ => none
  | fuel + 1, acc, s =>
    match s with
    | [] => none
    | '\\' :: rest =>
      match escape multiline rest with
      | some (cs, rest) => basicBody multiline fuel (cs.reverse ++ acc) rest
      | none => none
    | '"' :: rest =>
      if !multiline then some (acc.reverse, rest)
      else match rest with
        | '"' :: '"' :: rest => some (acc.reverse, rest)
        | _ => basicBody multiline fuel ('"' :: acc) rest
    | c :: rest =>
      if isControl c && !(multiline && c == '\n') then none
      else basicBody multiline fuel (c :: acc) rest

/-- Reads up to three single quotes. -/
def literalLines : (fuel : Nat) → List Char → List Char → Option (List Char × List Char)
  | 0, _, _ => none
  | fuel + 1, acc, s =>
    match s with
    | '\'' :: '\'' :: '\'' :: rest => some (acc.reverse, rest)
    | c :: rest => if isControl c && c != '\n' then none else literalLines fuel (c :: acc) rest
    | [] => none

/-- Up to two more quotes belong to a text of several lines. -/
def extraQuotes (mark : Char) (body s : List Char) : List Char × List Char :=
  match s with
  | c :: d :: rest =>
    if c == mark && d == mark then (body ++ [mark, mark], rest)
    else if c == mark then (body ++ [mark], d :: rest)
    else (body, s)
  | [c] => if c == mark then (body ++ [mark], []) else (body, s)
  | [] => (body, s)

/-- Drops a line end that follows an opening mark. -/
def dropFirstLineEnd : List Char → List Char
  | '\n' :: rest => rest
  | s => s

/-- Reads a text in single quotes, after the opening one. -/
def literal : Reader String := fun s =>
  let body := s.takeWhile (· != '\'')
  match s.drop body.length with
  | _ :: rest => if body.any isControl then none else some (String.ofList body, rest)
  | [] => none

def textValue : Reader String := fun s =>
  match s with
  | '"' :: '"' :: '"' :: rest => do
    let (body, rest) ← basicBody true (rest.length + 1) [] (dropFirstLineEnd rest)
    let (body, rest) := extraQuotes '"' body rest
    return (String.ofList body, rest)
  | '\'' :: '\'' :: '\'' :: rest => do
    let (body, rest) ← literalLines (rest.length + 1) [] (dropFirstLineEnd rest)
    let (body, rest) := extraQuotes '\'' body rest
    return (String.ofList body, rest)
  | '"' :: rest => do
    let (body, rest) ← basicBody false (rest.length + 1) [] rest
    return (String.ofList body, rest)
  | '\'' :: rest => literal rest
  | _ => none

def keyPart : Reader String := fun s =>
  match s with
  | '\'' :: rest => literal rest
  | '"' :: rest => do
    let (body, rest) ← basicBody false (rest.length + 1) [] rest
    return (String.ofList body, rest)
  | _ =>
    let bare := s.takeWhile isBare
    if bare.isEmpty then none else some (String.ofList bare, s.drop bare.length)

/-- Reads a key with the blanks after it. -/
def key : (fuel : Nat) → Reader Key
  | 0, _ => none
  | fuel + 1, s => do
    let (part, rest) ← keyPart s
    match skipGap rest with
    | '.' :: rest => do
      let (parts, rest) ← key fuel (skipGap rest)
      return (part :: parts, rest)
    | rest => return ([part], rest)

/-- Digits of a class, with single underscores between them. -/
def digits (p : Char → Bool) : List Char → List Char × List Char
  | c :: '_' :: d :: rest =>
    if p c then
      if p d then
        let (more, rest) := digits p (d :: rest)
        (c :: more, rest)
      else ([c], '_' :: d :: rest)
    else ([], c :: '_' :: d :: rest)
  | c :: rest =>
    if p c then
      let (more, rest) := digits p rest
      (c :: more, rest)
    else ([], c :: rest)
  | [] => ([], [])

/-- The number that digits write in a base. -/
def inBase (base : Nat) (ds : List Char) : Nat :=
  ds.foldl (fun n d => n * base + (Text.hexDigit? d).getD 0) 0

/-- Reads a whole number with a base mark. -/
def basedNumber : Reader Value := fun s =>
  let go := fun (base : Nat) (p : Char → Bool) (rest : List Char) =>
    let (ds, rest) := digits p rest
    if ds.isEmpty then none else some (Value.int (inBase base ds), rest)
  match s with
  | '0' :: 'x' :: rest => go 16 (fun c => (Text.hexDigit? c).isSome) rest
  | '0' :: 'b' :: rest => go 2 (fun c => c == '0' || c == '1') rest
  | '0' :: 'o' :: rest => go 8 (fun c => '0' ≤ c && c ≤ '7') rest
  | _ => none

def decimalNumber : Reader Value := fun s =>
  let (negative, t) := match s with
    | '-' :: rest => (true, rest)
    | '+' :: rest => (false, rest)
    | _ => (false, s)
  let (whole, rest) := match t with
    | '0' :: rest => (['0'], rest)
    | _ => digits Char.isDigit t
  if whole.isEmpty then none
  else
    let (fraction, rest) := match rest with
      | '.' :: tail =>
        let (ds, after) := digits Char.isDigit tail
        if ds.isEmpty then (none, rest) else (some ds, after)
      | _ => (none, rest)
    let (exponent, rest) := match rest with
      | e :: tail =>
        if e == 'e' || e == 'E' then
          let (down, tail) := match tail with
            | '-' :: t => (true, t)
            | '+' :: t => (false, t)
            | t => (false, t)
          let (ds, after) := digits Char.isDigit tail
          if ds.isEmpty then (none, rest)
          else (some (if down then -(Json.natOf ds : Int) else (Json.natOf ds : Int)), after)
        else (none, rest)
      | [] => (none, rest)
    if fraction.isNone && exponent.isNone then
      let n : Int := Json.natOf whole
      some (.int (if negative then -n else n), rest)
    else
      let ds := whole ++ fraction.getD []
      let e := exponent.getD 0 - ((fraction.getD []).length : Int)
      some (.float (Json.floatOf negative (Json.natOf ds) e), rest)

/-- Reads exactly `n` digits as a number between two bounds. -/
def fixedNumber (n low high : Nat) : Reader Nat := fun s =>
  let ds := s.take n
  let v := Json.natOf ds
  if ds.length = n && ds.all Char.isDigit && low ≤ v && v ≤ high then some (v, s.drop n) else none

/-- Two digits. -/
def pad2 (n : Nat) : String :=
  if n < 10 then "0" ++ toString n else toString n

def timeOfDay : Reader String := fun s => do
  let (h, s) ← fixedNumber 2 0 23 s
  let ':' :: s := s | none
  let (m, s) ← fixedNumber 2 0 59 s
  let ':' :: s := s | none
  let (sec, s) ← fixedNumber 2 0 59 s
  let base := pad2 h ++ ":" ++ pad2 m ++ ":" ++ pad2 sec
  match s with
  | '.' :: rest =>
    let ds := rest.takeWhile Char.isDigit
    if ds.isEmpty then return (base, s)
    else
      let micros := (ds.take 6) ++ List.replicate (6 - (ds.take 6).length) '0'
      let shown := if micros.all (· == '0') then base else base ++ "." ++ String.ofList micros
      return (shown, rest.drop ds.length)
  | _ => return (base, s)

def daysIn (year month : Nat) : Nat :=
  if month = 2 then
    if year % 4 = 0 && (year % 100 ≠ 0 || year % 400 = 0) then 29 else 28
  else if month = 4 || month = 6 || month = 9 || month = 11 then 30
  else 31

/-- Reads an offset from universal time. -/
def offset (s : List Char) : String × List Char :=
  match s with
  | 'Z' :: rest | 'z' :: rest => ("+00:00", rest)
  | c :: rest =>
    if c == '+' || c == '-' then
      match fixedNumber 2 0 23 rest with
      | some (h, ':' :: rest') =>
        match fixedNumber 2 0 59 rest' with
        | some (m, rest'') => (String.singleton c ++ pad2 h ++ ":" ++ pad2 m, rest'')
        | none => ("", s)
      | _ => ("", s)
    else ("", s)
  | [] => ("", s)

/-- Reads a date, with a time if one follows.  An impossible date is an error. -/
def moment (s : List Char) : Option (Option (Value × List Char)) :=
  let date := do
    let (y, s) ← fixedNumber 4 0 9999 s
    let '-' :: s := s | none
    let (m, s) ← fixedNumber 2 1 12 s
    let '-' :: s := s | none
    let (d, s) ← fixedNumber 2 1 31 s
    some (y, m, d, s)
  match date with
  | none => some none
  | some (y, m, d, rest) =>
    if y = 0 || daysIn y m < d then none
    else
      let year := String.ofList (s.take 4)
      let day := year ++ "-" ++ pad2 m ++ "-" ++ pad2 d
      match rest with
      | c :: tail =>
        if c == 'T' || c == 't' || c == ' ' then
          match timeOfDay tail with
          | some (time, tail) =>
            let (shift, tail) := offset tail
            some (some (.moment (day ++ " " ++ time ++ shift), tail))
          | none => some (some (.moment day, rest))
        else some (some (.moment day, rest))
      | [] => some (some (.moment day, rest))

def specialNumber : Reader Value := fun s =>
  let (negative, t) := match s with
    | '-' :: rest => (true, rest)
    | '+' :: rest => (false, rest)
    | _ => (false, s)
  match t with
  | 'i' :: 'n' :: 'f' :: rest => some (.float (if negative then -1.0 / 0.0 else 1.0 / 0.0), rest)
  | 'n' :: 'a' :: 'n' :: rest => some (.float (0.0 / 0.0), rest)
  | _ => none

/-- The entry of a key. -/
def lookup (k : String) (es : Entries) : Option Value :=
  (es.find? fun e => e.1 == .text k).map (·.2)

/-- Changes the table under a key, and makes the tables on the way.  With `last` the way leads through
the last element of an array. -/
def update (last : Bool) : Key → (Entries → Option Entries) → Entries → Option Entries
  | [], f, es => f es
  | k :: ks, f, es =>
    match lookup k es with
    | none => (update last ks f []).map fun inner => Value.put es (.text k) (.dict inner)
    | some (.dict inner) =>
      (update last ks f inner).map fun inner => Value.put es (.text k) (.dict inner)
    | some (.list xs) =>
      match last, xs.getLast? with
      | true, some (.dict inner) =>
        (update last ks f inner).map fun inner =>
          Value.put es (.text k) (.list (xs.dropLast ++ [.dict inner]))
      | _, _ => none
    | some _ => none

def addNew (k : String) (v : Value) (es : Entries) : Option Entries :=
  if (lookup k es).isSome then none else some (es ++ [(.text k, v)])

/-- Whether a value has contents of its own. -/
def isContainer : Value → Bool
  | .dict _ | .list _ => true
  | _ => false

mutual

def value : (fuel : Nat) → Reader Value
  | 0, _ => none
  | fuel + 1, s =>
    match s with
    | [] => none
    | '[' :: rest => do
      let rest ← skipLines (rest.length + 1) rest
      match rest with
      | ']' :: rest => return (.list [], rest)
      | _ => do
        let (xs, rest) ← elements fuel rest
        return (.list xs, rest)
    | '{' :: rest =>
      match skipGap rest with
      | '}' :: rest => some (.dict [], rest)
      | rest => do
        let (es, rest) ← members fuel [] [] rest
        return (.dict es, rest)
    | c :: _ =>
      if c == '"' || c == '\'' then (textValue s).map fun (t, rest) => (.text t, rest)
      else if "true".toList.isPrefixOf s then some (.bool true, s.drop 4)
      else if "false".toList.isPrefixOf s then some (.bool false, s.drop 5)
      else match moment s with
        | none => none
        | some (some r) => some r
        | some none =>
          match timeOfDay s with
          | some (t, rest) => some (.moment t, rest)
          | none =>
            (basedNumber s).orElse fun _ => (decimalNumber s).orElse fun _ => specialNumber s

def elements : (fuel : Nat) → Reader (List Value)
  | 0, _ => none
  | fuel + 1, s => do
    let (x, rest) ← value fuel s
    let rest ← skipLines (rest.length + 1) rest
    match rest with
    | ']' :: rest => return ([x], rest)
    | ',' :: rest => do
      let rest ← skipLines (rest.length + 1) rest
      match rest with
      | ']' :: rest => return ([x], rest)
      | _ => do
        let (xs, rest) ← elements fuel rest
        return (x :: xs, rest)
    | _ => none

/-- Reads the members of an inline table; `frozen` are the keys that may not change. -/
def members : (fuel : Nat) → (frozen : List Key) → Entries → Reader Entries
  | 0, _, _, _ => none
  | fuel + 1, frozen, es, s => do
    let (k, rest) ← key (s.length + 1) s
    let '=' :: rest := rest | none
    let (v, rest) ← value fuel (skipGap rest)
    if frozen.any (·.isPrefixOf k) then none
    let es ← update false k.dropLast (addNew (k.getLast?.getD "") v) es
    match skipGap rest with
    | '}' :: rest => return (es, rest)
    | ',' :: rest => members fuel (if isContainer v then k :: frozen else frozen) es (skipGap rest)
    | _ => none

end

/-- What the statements so far have built. -/
structure Draft where
  entries : Entries := []
  /-- The table that key statements add to. -/
  header : Key := []
  /-- Keys that may not be opened as tables. -/
  closed : List Key := []
  /-- Keys that will be closed at the next header. -/
  pending : List Key := []
  /-- Keys whose contents may not change. -/
  frozen : List Key := []

/-- Whether the contents under a key may not change. -/
def Draft.isFrozen (d : Draft) (k : Key) : Bool :=
  d.frozen.any (·.isPrefixOf k)

/-- A table header, after its bracket. -/
def Draft.openTable (d : Draft) (s : List Char) : Option (Draft × List Char) := do
  let d := { d with closed := d.pending ++ d.closed, pending := [] }
  let (k, rest) ← key (s.length + 1) (skipGap s)
  if d.closed.contains k || d.isFrozen k then none
  let entries ← update true k some d.entries
  match rest with
  | ']' :: rest => return ({ d with entries, header := k, closed := k :: d.closed }, rest)
  | _ => none

/-- The header of a table in an array, after its brackets. -/
def Draft.openElement (d : Draft) (s : List Char) : Option (Draft × List Char) := do
  let d := { d with closed := d.pending ++ d.closed, pending := [] }
  let (k, rest) ← key (s.length + 1) (skipGap s)
  if d.isFrozen k then none
  let last := k.getLast?.getD ""
  let entries ← update true k.dropLast (fun es =>
    match lookup last es with
    | none => some (es ++ [(.text last, .list [.dict []])])
    | some (.list xs) => some (Value.put es (.text last) (.list (xs ++ [.dict []])))
    | some _ => none) d.entries
  match rest with
  | ']' :: ']' :: rest =>
    return ({ d with
      entries, header := k, closed := k :: d.closed.filter (!k.isPrefixOf ·),
      frozen := d.frozen.filter (!k.isPrefixOf ·) }, rest)
  | _ => none

/-- A key with its value. -/
def Draft.addEntry (d : Draft) (s : List Char) : Option (Draft × List Char) := do
  let (k, rest) ← key (s.length + 1) s
  let '=' :: rest := rest | none
  let rest := skipGap rest
  let (v, rest) ← value (2 * rest.length + 2) rest
  let inner := (List.range (k.length - 1)).map fun i => d.header ++ k.take (i + 1)
  if inner.any d.closed.contains then none
  let parent := d.header ++ k.dropLast
  if d.isFrozen parent then none
  let entries ← update true parent (addNew (k.getLast?.getD "") v) d.entries
  let frozen := if isContainer v then (d.header ++ k) :: d.frozen else d.frozen
  return ({ d with entries, frozen, pending := inner ++ d.pending }, rest)

/-- Reads the statements of a document. -/
def statements : (fuel : Nat) → Draft → List Char → Option Draft
  | 0, _, _ => none
  | fuel + 1, d, s =>
    match skipGap s with
    | [] => some d
    | '\n' :: rest => statements fuel d rest
    | c :: rest => do
      let (d, rest) ←
        if c == '#' then some (d, c :: rest)
        else if c == '[' then
          match rest with
          | '[' :: rest => d.openElement rest
          | _ => d.openTable rest
        else if isBare c || c == '"' || c == '\'' then d.addEntry (c :: rest)
        else none
      match ← skipComment (skipGap rest) with
      | [] => some d
      | '\n' :: rest => statements fuel d rest
      | _ => none

def read? (s : List Char) : Option Value :=
  (statements (s.length + 2) {} s).map fun d => .dict d.entries

end TemplateTidy.Data.Toml
