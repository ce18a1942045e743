import TemplateTidy.Pattern.Cursor

/-! # Escapes in patterns

What a backslash stands for with the characters after it: a class of characters, an anchor, a
character by its number, or the text of an earlier group. -/

namespace TemplateTidy.Pattern

open Text

/-- The number that a run of digits writes. -/
def number (digits : List Char) (base : Nat) : Nat :=
  digits.foldl (fun n d =>
    n * base + (if d.isDigit then d.toNat - '0'.toNat else d.toLower.toNat - 'a'.toNat + 10)) 0

def isOctal (c : Char) : Bool :=
  '0' ≤ c && c ≤ '7'

def namedClass (flags : Flags) (c : Char) : Option CharItem :=
  let words := if flags.ascii then .asciiWord else if flags.strict then .wordStrict else .word
  let digits := if flags.ascii then .asciiDigit else .digit
  let spaces := if flags.ascii then .asciiSpace else if flags.strict then .wideSpace else .space
  match c with
  | 'd' => some (.named digits true)
  | 'D' => some (.named digits false)
  | 's' => some (.named spaces true)
  | 'S' => some (.named spaces false)
  | 'w' => some (.named words true)
  | 'W' => some (.named words false)
  | 'h' => if flags.strict then none else some (.named .horizontal true)
  | _ => none

/-- The control character that an escaped letter stands for. -/
def controlChar : Char → Option Char
  | 'a' => some '\x07'
  | 'b' => some '\x08'
  | 'f' => some '\x0c'
  | 'n' => some '\n'
  | 'r' => some '\r'
  | 't' => some '\t'
  | 'v' => some '\x0b'
  | _ => none

/-- The anchor that an escaped letter stands for. -/
def escapedAnchor (flags : Flags) : Char → Option Node
  | 'A' => some (.anchor .textStart)
  | 'Z' => some (.anchor .textEnd)
  | 'b' => some (.anchor (.wordEdge flags.ascii true))
  | 'B' => some (.anchor (.wordEdge flags.ascii false))
  | 'm' => if flags.strict then none else some (.anchor (.wordBound flags.ascii true))
  | 'M' => if flags.strict then none else some (.anchor (.wordBound flags.ascii false))
  | 'K' => if flags.strict then none else some .keep
  | 'G' => if flags.strict then none else some (.anchor .searchStart)
  | _ => none

/-- A literal character under the current options. -/
def literal (c : Char) : Reader Node := do
  return .one (.single c (← get).flags.folding)

def hexDigits : Nat → List Char → Reader (List Char)
  | 0, acc => return acc.reverse
  | n + 1, acc => do
    match ← next? with
    | some c =>
      if CharClass.hexDigit.holds c then hexDigits n (c :: acc) else fail .badEscape
    | none => fail .badEscape

/-- How many digits a hexadecimal escape has. -/
def hexWidth : Char → Option Nat
  | 'x' => some 2
  | 'u' => some 4
  | 'U' => some 8
  | _ => none

/-- The character of a code point, if there is one. -/
def charOf (n : Nat) : Reader Char :=
  if n < 0x110000 then return Char.ofNat n else fail .badEscape

/-- Reads octal digits after `digits`, three in all at most. -/
def octal (digits : List Char) : Reader Char := do
  let rec go : Nat → List Char → Reader (List Char)
    | 0, acc => return acc
    | n + 1, acc => do
      let saved ← get
      match ← next? with
      | some c => if isOctal c then go n (acc ++ [c]) else do set saved; return acc
      | none => do set saved; return acc
  let digits ← go 2 digits
  if digits.all isOctal then charOf (number digits 8) else fail .badEscape

/-- Reads a group name, up to a closing mark. -/
def groupName (numeric : Bool) : Reader String := do
  let name ← takeWhile fun c => c != ')' && c != '>'
  if name.isEmpty then fail .badGroupName
  else if name.all Char.isDigit then
    if numeric && number name 10 ≥ 1 then return String.ofList name else fail .badGroupName
  else if name.all isWord && !name.head?.any isDigit then return String.ofList name
  else fail .badGroupName

/-- The number of a group that is named or numbered. -/
def groupIndex (name : String) : Reader Nat := do
  let c ← get
  if name.toList.all Char.isDigit then return number name.toList 10
  else match c.names.lookup name with
    | some i => return i
    | none => fail .unknownGroup

/-- A reference to a group that is closed.  In the strict dialect it stands before the reference. -/
def recallOf (name : String) : Reader Node := do
  let i ← groupIndex name
  let c ← get
  if c.flags.strict && c.count < i then fail .unknownGroup
  else if c.opened.contains i then fail .openGroup else return .recall i c.flags.folding

def escapeInSet : Reader CharItem := do
  match ← nextRaw? with
  | none => fail .badEscape
  | some c =>
    if let some n := hexWidth c then
      let d ← charOf (number (← hexDigits n []) 16)
      return .range d d
    else if c.isAlpha then
      match namedClass (← get).flags c with
      | some item => return item
      | none =>
        match controlChar c with
        | some d => return .range d d
        | none =>
          if (c == 'p' || c == 'P' || c == 'N') && !(← get).flags.strict then return .range c c
          else fail .badEscape
    else if c.isDigit then
      let d ← octal [c]
      return .range d d
    else return .range c c

/-- A reference by number, or an octal escape of three digits. -/
def numericEscape (first : Char) : Reader Node := do
  if first == '0' then literal (← octal [first])
  else
    let saved ← get
    match ← next? with
    | some second =>
      if second.isDigit then
        let saved ← get
        match ← next? with
        | some third =>
          if isOctal first && isOctal second && isOctal third then
            literal (← charOf (number [first, second, third] 8))
          else do
            set saved
            recallOf (String.ofList [first, second])
        | none => do
          set saved
          recallOf (String.ofList [first, second])
      else do
        set saved
        recallOf (String.ofList [first])
    | none => do
      set saved
      recallOf (String.ofList [first])

def escape : Reader Node := do
  match ← nextRaw? with
  | none => fail .badEscape
  | some c =>
    let flags := (← get).flags
    if let some n := hexWidth c then literal (← charOf (number (← hexDigits n []) 16))
    else if c == 'g' && !flags.strict then
      let saved ← get
      let named : Reader Node := do
        expect "<"
        let name ← groupName true
        expect ">"
        recallOf name
      match named.run saved with
      | .ok (node, cursor) => do set cursor; return node
      | .error _ => do set saved; literal c
    else if c.isAlpha then
      match escapedAnchor flags c with
      | some node => return node
      | none =>
        match namedClass flags c with
        | some item => return .one { items := [item] }
        | none =>
          match controlChar c with
          | some d => return .one (.single d .exact)
          | none =>
            if (c == 'p' || c == 'P' || c == 'N') && !flags.strict then literal c
            else fail .badEscape
    else if c.isDigit then numericEscape c
    else literal c

end TemplateTidy.Pattern
