import TemplateTidy.Data.Json
import TemplateTidy.Data.Yaml.Text

/-! # Tokens

The tokens of a document.  Blocks have no brackets in the text; their tokens come from indentation.  A
key without a mark of its own is known only when its colon is met: until then its place among the
tokens is kept as a possible key. -/

namespace TemplateTidy.Data.Yaml

inductive Token where
  | directive (name : String) (arguments : List String)
  | documentStart
  | documentEnd
  | blockSequence
  | blockMapping
  | blockEnd
  | openSequence
  | closeSequence
  | openMapping
  | closeMapping
  | entry
  | comma
  | key
  | value
  | alias (name : String)
  | anchor (name : String)
  | tag (handle : Option String) (suffix : String)
  | scalar (text : List Char) (plain : Bool)
deriving DecidableEq, Repr

/-! ### Names, tags and directives -/

def anchorName? (c : Cursor) : Option (String × Cursor) :=
  let c := c.next
  let name := c.rest.takeWhile isNameChar
  let c := c.forward name.length
  if name.isEmpty then none
  else if isGapAt c.rest || c.rest.head?.any ("?:,]\x7d%@\x60".toList.contains ·) then
    some (String.ofList name, c)
  else none

def isTagChar (c : Char) : Bool :=
  c.isAlphanum || "-;/?:@&=+$,_.!~*'()[]%".toList.contains c

/-- Reads the handle of a tag: one mark, two marks, or a name between two. -/
def tagHandle? (c : Cursor) : Option (String × Cursor) :=
  match c.rest with
  | '!' :: rest =>
    if rest.head? == some ' ' then some ("!", c.next)
    else
      let name := rest.takeWhile isNameChar
      if (rest.drop name.length).head? == some '!' then
        some ("!" ++ String.ofList name ++ "!", c.forward (name.length + 2))
      else none
  | _ => none

def tagText? (c : Cursor) : Option (String × Cursor) :=
  let text := c.rest.takeWhile isTagChar
  if text.isEmpty || text.contains '%' then none else some (String.ofList text, c.forward text.length)

def tag? (c : Cursor) : Option (Token × Cursor) := do
  let (token, c) ← match c.rest.drop 1 with
    | '<' :: _ => do
      let (text, c) ← tagText? (c.forward 2)
      if c.rest.head? != some '>' then none
      some (Token.tag none text, c.next)
    | rest =>
      if isGapAt rest then some (Token.tag none "!", c.next)
      else do
        let body := rest.takeWhile fun ch => ch != ' ' && !isBreak ch
        let (handle, c) ← if body.contains '!' then tagHandle? c else some ("!", c.next)
        let (text, c) ← tagText? c
        some (Token.tag (some handle) text, c)
  if isSpaceOrEndAt c.rest then some (token, c) else none

def directive? (c : Cursor) : Option (Token × Cursor) := do
  let c := c.next
  let name := c.rest.takeWhile isNameChar
  let c := c.forward name.length
  if name.isEmpty || !isSpaceOrEndAt c.rest then none
  let name := String.ofList name
  let (arguments, c) ←
    if name = "YAML" then do
      let c := c.skipWhile (· == ' ')
      let major := c.rest.takeWhile Char.isDigit
      let c := c.forward major.length
      if major.isEmpty || c.rest.head? != some '.' then none
      let c := c.next
      let minor := c.rest.takeWhile Char.isDigit
      let c := c.forward minor.length
      if minor.isEmpty || !isSpaceOrEndAt c.rest then none
      some ([toString (Json.natOf major)], c)
    else if name = "TAG" then do
      let (handle, c) ← tagHandle? (c.skipWhile (· == ' '))
      if c.rest.head? != some ' ' then none
      let (text, c) ← tagText? (c.skipWhile (· == ' '))
      if !isSpaceOrEndAt c.rest then none
      some ([handle, text], c)
    else some ([], c.skipWhile (!isBreak ·))
  return (Token.directive name arguments, ← c.restOfLine?)

/-! ### The scanner -/

/-- A place at which a key may have begun. -/
structure PossibleKey where
  /-- The number of tokens before it. -/
  token : Nat
  /-- Whether nothing but a key may stand there. -/
  required : Bool
  index : Nat
  line : Nat
  column : Nat

structure Scan where
  cursor : Cursor
  tokens : Array Token := #[]
  /-- The depth of brackets. -/
  depth : Nat := 0
  /-- The column of the block, and those of the blocks around it. -/
  indent : Int := -1
  outer : List Int := []
  allowKey : Bool := true
  /-- Possible keys with their depths of brackets. -/
  keys : List (Nat × PossibleKey) := []

namespace Scan

/-- Whether brackets are open. -/
def inFlow (s : Scan) : Bool :=
  0 < s.depth

/-- Adds a token. -/
def push (s : Scan) (t : Token) : Scan :=
  { s with tokens := s.tokens.push t }

/-- Passes one character. -/
def step (s : Scan) (n : Nat) : Scan :=
  { s with cursor := s.cursor.forward n }

/-- Drops the possible key at this depth; a required one must not be dropped. -/
def dropKey? (s : Scan) : Option Scan :=
  match s.keys.lookup s.depth with
  | some k => if k.required then none else some { s with keys := s.keys.filter (·.1 != s.depth) }
  | none => some s

/-- Drops possible keys that lie on an earlier line or too far back. -/
def dropStale? (s : Scan) : Option Scan :=
  let stale (k : PossibleKey) : Bool := k.line != s.cursor.line || 1024 < s.cursor.index - k.index
  if s.keys.any fun (_, k) => stale k && k.required then none
  else some { s with keys := s.keys.filter fun (_, k) => !stale k }

def noteKey? (s : Scan) : Option Scan :=
  if s.allowKey then do
    let required := !s.inFlow && s.indent == (s.cursor.column : Int)
    let s ← s.dropKey?
    let key : PossibleKey :=
      { token := s.tokens.size, required, index := s.cursor.index, line := s.cursor.line,
        column := s.cursor.column }
    return { s with keys := (s.depth, key) :: s.keys }
  else some s

/-- Closes blocks that are indented deeper than a column. -/
def unwindFrom (column : Int) : (fuel : Nat) → Scan → Scan
  | 0, s => s
  | fuel + 1, s =>
    if column < s.indent then
      match s.outer with
      | indent :: outer => unwindFrom column fuel ({ s with indent, outer }.push .blockEnd)
      | [] => s
    else s

/-- Closes blocks that are indented deeper than a column; between brackets indentation is free. -/
def unwind (s : Scan) (column : Int) : Scan :=
  if s.inFlow then s else unwindFrom column s.outer.length s

/-- Opens a block at a column, unless one is open there; tells whether it did. -/
def openBlock (s : Scan) (column : Nat) : Bool × Scan :=
  if s.indent < (column : Int) then
    (true, { s with indent := column, outer := s.indent :: s.outer })
  else (false, s)

/-- Opens a block with a token at the present column, if one may begin here. -/
def openBlockHere? (s : Scan) (t : Token) : Option Scan :=
  if s.inFlow then some s
  else if !s.allowKey then none
  else
    match s.openBlock s.cursor.column with
    | (true, s) => some (s.push t)
    | (false, s) => some s

/-- Passes blanks, comments and line ends. -/
def toNextToken : (fuel : Nat) → Scan → Scan
  | 0, s => s
  | fuel + 1, s =>
    let c := (s.cursor.skipWhile (· == ' ')).skipComment
    match c.lineBreak with
    | ([], _) => { s with cursor := c }
    | (_, c) => toNextToken fuel { s with cursor := c, allowKey := s.allowKey || !s.inFlow }

/-- Ends all blocks, for a mark between documents. -/
def leaveDocument? (s : Scan) : Option Scan := do
  let s ← (s.unwind (-1)).dropKey?
  return { s with allowKey := false }

/-- Adds the token of a colon, and the key token before the key that it ends. -/
def addValue? (s : Scan) : Option Scan := do
  match s.keys.lookup s.depth with
  | some k =>
    let s := { s with keys := s.keys.filter (·.1 != s.depth),
                      tokens := s.tokens.insertIdxIfInBounds k.token .key }
    let s := if s.tokens.size = k.token then s.push .key else s
    let s :=
      if s.inFlow then s
      else
        match s.openBlock k.column with
        | (true, s) => { s with tokens := s.tokens.insertIdxIfInBounds k.token .blockMapping }
        | (false, s) => s
    return ({ s with allowKey := false }.push .value).step 1
  | none =>
    let s ← s.openBlockHere? .blockMapping
    let s ← { s with allowKey := !s.inFlow }.dropKey?
    return (s.push .value).step 1

/-- Whether a plain scalar may begin here. -/
def startsPlain (s : Scan) : Bool :=
  match s.cursor.rest with
  | [] => false
  | c :: rest =>
    !(c == ' ' || c == '\t' || isBreak c || "-?:,[]\x7b\x7d#&*!|>'\"%@\x60".toList.contains c) ||
      (!isGapAt rest && (c == '-' || (!s.inFlow && (c == '?' || c == ':'))))

/-- Reads the token that begins here. -/
def token? (s : Scan) (fuel : Nat) : Option Scan := do
  let c := s.cursor
  let opening (t : Token) : Option Scan := do
    let s ← s.noteKey?
    return ({ s with depth := s.depth + 1, allowKey := true }.push t).step 1
  let closing (t : Token) : Option Scan := do
    let s ← s.dropKey?
    if s.depth = 0 then none
    return ({ s with depth := s.depth - 1, allowKey := false }.push t).step 1
  let noted : Option Scan := do
    let s ← s.noteKey?
    return { s with allowKey := false }
  match c.rest with
  | [] => s
  | ch :: rest =>
    if ch == '%' && c.column == 0 then
      let s ← s.leaveDocument?
      let (t, c) ← directive? c
      return { s with cursor := c }.push t
    else if c.column == 0 && c.atSeparator then
      let s ← s.leaveDocument?
      return (s.push (if ch == '-' then .documentStart else .documentEnd)).step 3
    else if ch == '[' then opening .openSequence
    else if ch == '\x7b' then opening .openMapping
    else if ch == ']' then closing .closeSequence
    else if ch == '\x7d' then closing .closeMapping
    else if ch == ',' then
      let s ← { s with allowKey := true }.dropKey?
      return (s.push .comma).step 1
    else if ch == '-' && isGapAt rest then
      let s ← s.openBlockHere? .blockSequence
      let s ← { s with allowKey := true }.dropKey?
      return (s.push .entry).step 1
    else if ch == '?' && (s.inFlow || isGapAt rest) then
      let s ← s.openBlockHere? .blockMapping
      let s ← { s with allowKey := !s.inFlow }.dropKey?
      return (s.push .key).step 1
    else if ch == ':' && (s.inFlow || isGapAt rest) then s.addValue?
    else if ch == '*' then
      let s ← noted
      let (name, c) ← anchorName? c
      return { s with cursor := c }.push (.alias name)
    else if ch == '&' then
      let s ← noted
      let (name, c) ← anchorName? c
      return { s with cursor := c }.push (.anchor name)
    else if ch == '!' then
      let s ← noted
      let (t, c) ← tag? c
      return { s with cursor := c }.push t
    else if (ch == '|' || ch == '>') && !s.inFlow then
      let s ← { s with allowKey := true }.dropKey?
      let (text, c) ← block? (ch == '>') s.indent fuel c
      return { s with cursor := c }.push (.scalar text false)
    else if ch == '\'' || ch == '"' then
      let s ← noted
      let (text, c) ← quoted? (ch == '"') fuel c.next []
      return { s with cursor := c }.push (.scalar text false)
    else if s.startsPlain then
      let s ← noted
      let (text, ended, c) := plain s.inFlow (s.indent + 1) fuel c [] [] false
      return { s with cursor := c, allowKey := ended }.push (.scalar text true)
    else none

/-- Reads all tokens. -/
def run? : (fuel : Nat) → Scan → Option Scan
  | 0, _ => none
  | fuel + 1, s => do
    let s := s.toNextToken (fuel + 1)
    let s ← s.dropStale?
    let s := s.unwind s.cursor.column
    if s.cursor.rest.isEmpty then (s.unwind (-1)).dropKey?
    else run? fuel (← s.token? (fuel + 1))

end Scan

def tokens? (text : List Char) : Option (List Token) := do
  if !text.all isAllowed then none
  let text := match text with
    | '\ufeff' :: rest => rest
    | _ => text
  let s ← Scan.run? (text.length + 2) { cursor := { rest := text } }
  return s.tokens.toList

end TemplateTidy.Data.Yaml
