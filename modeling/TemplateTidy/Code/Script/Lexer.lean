import TemplateTidy.Code.Options
import TemplateTidy.Code.Script.Letter
import TemplateTidy.Code.Script.Token
import TemplateTidy.Text.Blank

/-! # Reading scripts

`tokens` cuts a script into tokens.  A slash begins a pattern where an expression may begin and divides
elsewhere, which the token before decides.  Names and strings may hold tags of the template languages
that the options name; the tags are then part of them.

The functions that measure (`nameLength`, `numberLength`, …) give the number of characters at the
beginning of a text that belong to what they are named for, and 0 if there is none. -/

namespace TemplateTidy.Code.Script

open Text

/-- A character that ends a line. -/
def isBreak (c : Char) : Bool :=
  c == '\n' || c == '\r' || c == '\u2028' || c == '\u2029'

/-- A character between tokens that ends no line. -/
def isGapBlank (c : Char) : Bool :=
  let n := c.toNat
  c == ' ' || c == '\t' || n == 0xA0 || n == 0x1680 || n == 0x180E || (0x2000 ≤ n && n ≤ 0x200A) ||
    n == 0x202F || n == 0x205F || n == 0x3000 || n == 0xFEFF

/-- Writes every line end as a line feed. -/
def unifyBreaks : List Char → List Char
  | [] => []
  | '\r' :: '\n' :: rest => '\n' :: unifyBreaks rest
  | c :: rest => (if isBreak c then '\n' else c) :: unifyBreaks rest

/-- The gap that the characters between two tokens make. -/
def Gap.ofText (text : List Char) : Gap :=
  let lines := (unifyBreaks text).splitOn '\n'
  { breaks := lines.length - 1, blanks := lines.getLast?.getD [] }

/-- The number of characters up to the end of `mark`, or all. -/
def reach (mark text : List Char) : Nat :=
  (Cursor.reach? mark text).getD text.length

/-! ### Template tags -/

/-- The length of a tag that begins with `opening` and ends with `closing`. -/
def enclosedLength (opening closing text : List Char) : Nat :=
  if opening.isPrefixOf text then opening.length + reach closing (text.drop opening.length) else 0

/-- The number of characters up to the end of a percent sign and a bracket after another character
than a percent sign, or all. -/
def erbReach : List Char → Nat
  | [] => 0
  | c :: rest =>
    if c != '%' && ['%', '>'].isPrefixOf rest then 3 else erbReach rest + 1

/-- The length of a tag in angle brackets with percent signs. -/
def erbLength : List Char → Nat
  | '<' :: '%' :: c :: rest => if c == '%' then 0 else 3 + erbReach rest
  | _ => 0

/-- The length of a tag in angle brackets with question marks. -/
def phpLength (text : List Char) : Nat :=
  [["<?=", "<? ", "<?php"].map String.toList].flatten.foldl (fun n opening =>
    if n = 0 then enclosedLength opening ['?', '>'] text else n) 0

/-- The length of a tag in braces: the first form that fits. -/
def bracedLength (forms : List (String × String)) (text : List Char) : Nat :=
  forms.foldl (fun n (opening, closing) =>
    if n = 0 then enclosedLength opening.toList closing.toList text else n) 0

def tagLength (languages : List String) (text : List Char) : Nat :=
  match text with
  | '<' :: _ =>
    let n := if languages.contains "php" then phpLength text else 0
    if n = 0 && languages.contains "erb" then erbLength text else n
  | '\x7b' :: _ =>
    let n :=
      if languages.contains "handlebars" then
        bracedLength [("\x7b\x7b!--", "--\x7d\x7d"), ("\x7b\x7b\x7b", "\x7d\x7d\x7d"),
          ("\x7b\x7b", "\x7d\x7d")] text
      else 0
    if n = 0 && languages.contains "django" then
      bracedLength [("\x7b\x7b", "\x7d\x7d"), ("\x7b#", "#\x7d"), ("\x7b%", "%\x7d")] text
    else n
  | _ => 0

/-- The number of characters before the first one that `stops` names, where the characters of tags do
not count; at most `fuel` steps. -/
def plainLength (languages : List String) (stops : Char → Bool) : (fuel : Nat) → List Char → Nat
  | 0, _ => 0
  | _, [] => 0
  | fuel + 1, c :: rest =>
    let n := tagLength languages (c :: rest)
    if 0 < n then n + plainLength languages stops fuel (rest.drop (n - 1))
    else if stops c then 0
    else 1 + plainLength languages stops fuel rest

/-! ### Names and numbers -/

/-- Whether a text begins with a character escape. -/
def beginsEscape : List Char → Bool
  | '\\' :: 'u' :: rest => 4 ≤ rest.length && (rest.take 4).all fun c => c.isDigit ||
      ('a' ≤ c && c ≤ 'f') || ('A' ≤ c && c ≤ 'F')
  | _ => false

/-- The length of the inside of a name; `skip` characters belong to an escape. -/
def nameTail (skip : Nat) : List Char → Nat
  | [] => 0
  | c :: rest =>
    if 0 < skip then 1 + nameTail (skip - 1) rest
    else if beginsEscape (c :: rest) then 1 + nameTail 5 rest
    else if continuesName c then 1 + nameTail 0 rest
    else 0

def nameLength : List Char → Nat
  | [] => 0
  | c :: rest =>
    if beginsEscape (c :: rest) then 1 + nameTail 5 rest
    else if beginsName c then 1 + nameTail 0 rest
    else 0

/-- The length of tags and the parts of names between them; at most `fuel` tags. -/
def taggedTail (languages : List String) : (fuel : Nat) → List Char → Nat
  | 0, _ => 0
  | fuel + 1, text =>
    let n := tagLength languages text
    if n = 0 then 0
    else
      let m := n + nameTail 0 (text.drop n)
      m + taggedTail languages fuel (text.drop m)

/-- The length of a name that may hold tags. -/
def wordLength (languages : List String) (text : List Char) : Nat :=
  let n := nameLength text
  n + taggedTail languages text.length (text.drop n)

def digitsLength (text : List Char) : Nat :=
  (text.takeWhile fun c => isDigit c || c == '_').length

def exponentLength (text : List Char) : Nat :=
  match text with
  | e :: rest =>
    if e == 'e' || e == 'E' then
      let sign := match rest with
        | s :: _ => if s == '+' || s == '-' then 1 else 0
        | [] => 0
      let digits := digitsLength (rest.drop sign)
      if digits = 0 then 0 else 1 + sign + digits
    else 0
  | [] => 0

/-- The length of a number of a base, after its mark, with the mark of a large number. -/
def basedLength (isOf : Char → Bool) (text : List Char) : Nat :=
  let digits := (text.takeWhile fun c => isOf c || c == '_').length
  2 + digits + (if (text.drop digits).head? == some 'n' then 1 else 0)

def numberLength (text : List Char) : Nat :=
  let hex (c : Char) : Bool := c.isDigit || ('a' ≤ c && c ≤ 'f') || ('A' ≤ c && c ≤ 'F')
  let decimal (text : List Char) : Nat :=
    let whole := digitsLength text
    if (text.drop whole).head? == some 'n' then whole + 1
    else
      let point := if (text.drop whole).head? == some '.' then 1 else 0
      let n := whole + point + (if point = 1 then digitsLength (text.drop (whole + 1)) else 0)
      n + exponentLength (text.drop n)
  match text with
  | '0' :: 'x' :: rest | '0' :: 'X' :: rest => basedLength hex rest
  | '0' :: 'o' :: rest | '0' :: 'O' :: rest => basedLength (fun c => '0' ≤ c && c ≤ '7') rest
  | '0' :: 'b' :: rest | '0' :: 'B' :: rest => basedLength (fun c => c == '0' || c == '1') rest
  | '.' :: d :: rest =>
    if isDigit d then
      let n := 2 + digitsLength rest
      n + exponentLength (text.drop n)
    else 0
  | c :: _ => if isDigit c then decimal text else 0
  | [] => 0

/-! ### Strings and patterns -/

/-- Text that has been read, whether it holds character escapes, and the rest. -/
structure Quoted where
  text : List Char
  escapes : Bool
  rest : List Char

/-- The characters at which a part of a string that ends with `mark` ends. -/
def quotedStops (mark c : Char) : Bool :=
  c == '\\' ||
    (if mark == '\x60' then c == '\x60' || c == '$'
     else if mark == '\x7d' then c == '\x60' || c == '\x7d'
     else c == mark || isBreak c)

/-- Adds text in front. -/
def Quoted.after (q : Quoted) (text : List Char) : Quoted :=
  { q with text := text ++ q.text }

/-- Reads the inside of a string up to `mark`, or up to a line end unless `lines` allows them.  With
`nested`, a template string may hold expressions and an expression template strings. -/
def quoted (languages : List String) (mark : Char) (lines nested : Bool) :
    (fuel : Nat) → List Char → Quoted
  | 0, text => { text := [], escapes := false, rest := text }
  | fuel + 1, text =>
    let plain := plainLength languages (quotedStops mark) (text.length + 1) text
    let body : Quoted := match text.drop plain with
      | [] => { text := [], escapes := false, rest := [] }
      | c :: rest =>
        let stays : Quoted := { text := [], escapes := false, rest := c :: rest }
        let step (taken : List Char) (rest : List Char) : Quoted :=
          (quoted languages mark lines nested fuel rest).after taken
        if c == mark || (!lines && isBreak c) then stays
        else match c, rest with
          | '\\', '\r' :: '\n' :: rest => step ['\\', '\n'] rest
          | '\\', d :: rest =>
            let q := step ['\\', d] rest
            { q with escapes := q.escapes || d == 'x' || d == 'u' }
          | _, _ =>
            if !nested then step [c] rest
            else
              let (opening, rest) := match c, rest with
                | '$', '\x7b' :: rest =>
                  if mark == '\x60' then (['$', '\x7b'], rest) else ([c], '\x7b' :: rest)
                | _, _ => ([c], rest)
              let inner? : Option Char :=
                if mark == '\x60' && opening == ['$', '\x7b'] then some '\x7d'
                else if mark == '\x7d' && opening == ['\x60'] then some '\x60'
                else none
              match inner? with
              | none => step opening rest
              | some inner =>
                let q := quoted languages inner lines nested fuel rest
                let r := step (opening ++ q.text ++ q.rest.take 1) (q.rest.drop 1)
                { r with escapes := r.escapes || q.escapes }
    body.after (text.take plain)

/-- Reads a string that begins with `mark`, which has been read. -/
def stringBody (languages : List String) (mark : Char) (text : List Char) : Quoted :=
  let template := mark == '\x60'
  quoted languages mark template template (text.length + 1) text

def hexValue (digits : List Char) : Option Nat :=
  digits.foldlM (fun n c =>
    if c.isDigit then some (16 * n + (c.toNat - '0'.toNat))
    else if 'a' ≤ c && c ≤ 'f' then some (16 * n + (c.toNat - 'a'.toNat + 10))
    else if 'A' ≤ c && c ≤ 'F' then some (16 * n + (c.toNat - 'A'.toNat + 10))
    else none) 0

/-- Puts characters for their escapes where that is safe.  None is put, and the answer is `none`, if an
escape is broken or stands for a byte that is no character of its own. -/
def unescape : List Char → Option (List Char)
  | [] => some []
  | '\\' :: '\\' :: rest => (unescape rest).map (['\\', '\\'] ++ ·)
  | '\\' :: 'x' :: a :: b :: rest => do
    let n ← hexValue [a, b]
    if 0x7E < n && n ≤ 0xFF then none
    else if n < 0x20 then (unescape rest).map (['\\', 'x', a, b] ++ ·)
    else if n == 0x22 || n == 0x27 || n == 0x5C then (unescape rest).map (['\\', Char.ofNat n] ++ ·)
    else (unescape rest).map (Char.ofNat n :: ·)
  | '\\' :: 'u' :: a :: b :: c :: d :: rest => do
    let n ← hexValue [a, b, c, d]
    if n < 0x20 then (unescape rest).map (['\\', 'u', a, b, c, d] ++ ·)
    else if n == 0x22 || n == 0x27 || n == 0x5C then (unescape rest).map (['\\', Char.ofNat n] ++ ·)
    else (unescape rest).map (Char.ofNat n :: ·)
  | '\\' :: 'x' :: _ | '\\' :: 'u' :: _ => none
  | '\\' :: c :: rest => (unescape rest).map (['\\', c] ++ ·)
  | c :: rest => (unescape rest).map (c :: ·)

/-- The length of the inside of a pattern, up to a slash outside classes or to a line end. -/
def patternTail (escaped inClass : Bool) : List Char → Nat
  | [] => 0
  | c :: rest =>
    if isBreak c || (!escaped && !inClass && c == '/') then 0
    else if escaped then 1 + patternTail false inClass rest
    else 1 + patternTail (c == '\\') (c == '[' || (inClass && c != ']')) rest

def patternLength (text : List Char) : Nat :=
  let n := 1 + patternTail false false (text.drop 1)
  match text.drop n with
  | '/' :: rest => n + 1 + nameLength rest
  | _ => n

/-! ### Markup -/

def markupTag : Pattern :=
  .ofSource { strict := true } (r"[\s\S]*?<(\/?)([-a-zA-Z:0-9_.]+|\x7b[^\x7d]+?\x7d|!\[CDATA\[[^\]]*?\]\]|)" ++
    r"(\s*\x7b[^\x7d]+?\x7d|\s+[-a-zA-Z:0-9_.]+|\s+[-a-zA-Z:0-9_.]+\s*=\s*('[^']*'|" ++
    "\"[^\"]*\"" ++ r"|\x7b([^\x7b\x7d]|\x7b[^\x7d]+?\x7d)+?\x7d))*\s*(\/?)\s*>")

/-- A name in braces without the blanks beside them. -/
def tightName (name : List Char) : List Char :=
  let name := match name.reverse with
    | '\x7d' :: rest => (rest.dropWhile isBlank).reverse ++ ['\x7d']
    | _ => name
  match name with
  | '\x7b' :: rest => '\x7b' :: rest.dropWhile isBlank
  | _ => name

/-- The length of markup from a place on, up to the tag that closes the one of the name `root`, or to
the end of the text.  There is none if the text ends with a tag that leaves the root open. -/
def markupReach (text : Array Char) (root : List Char) : (fuel depth pos : Nat) → Option Nat
  | 0, _, _ => none
  | fuel + 1, depth, pos =>
    if text.size ≤ pos then none
    else match markupTag.matchAt? text pos with
    | none => some text.size
    | some m =>
      let closes := !(m.capture text 1).isEmpty
      let name := m.capture text 2
      let single := !(m.capture text 6).isEmpty || "![CDATA[".toList.isPrefixOf name
      let counts := !single && (name == root || root.head? == some '\x7b')
      let depth := if !counts then depth else if closes then depth - 1 else depth + 1
      if depth = 0 then some m.stop else markupReach text root fuel depth m.stop

/-- The tag at the beginning of a text: where it ends, and its name if it opens. -/
def markupStart? (text : Array Char) : Option (Nat × Option (List Char)) :=
  (markupTag.matchAt? text 0).map fun m =>
    (m.stop, if (m.capture text 1).isEmpty then some (tightName (m.capture text 2)) else none)

/-! ### Tokens -/

/-- What a reader of tokens remembers. -/
structure Reader where
  rest : List Char
  /-- Inside a comment of the page around the script. -/
  inPageComment : Bool := false
  /-- The token before. -/
  previous : Token := .first
  /-- If that is a bracket that closes another one, the token before the other one. -/
  beforeOpener : Option Token := none
  /-- The open brackets and the tokens before them, innermost first. -/
  openers : List (String × Token) := []
  /-- The tokens, last first. -/
  tokens : List Token := []

/-- A token without its place, or a comment. -/
inductive Item where
  | token (kind : Kind) (text : List Char)
  | comment (kind : CommentKind) (text : List Char) (directives : List (List Char × List Char))

/-- Whether an expression may begin after the token before. -/
def Reader.mayBeginExpr (r : Reader) : Outcome Bool :=
  let t := r.previous
  if t.isReserved ["return", "case", "throw", "else", "do", "typeof", "yield"] then .ok true
  else if t.kind = .closeExpr && t.text == ")" then
    match r.beforeOpener with
    | none => .error .missingOperation
    | some before => .ok (before.isReserved ["if", "while", "for"])
  else .ok ([Kind.openExpr, .openBlock, .start, .closeBlock, .operator, .equals, .stop, .semicolon,
    .comma].contains t.kind)

def strayLine (text : List Char) : Item :=
  .comment .stray (strip text ++ ['\n']) []

/-- The number of characters up to the end of the first line end, or all. -/
def lineReach : List Char → Nat
  | [] => 0
  | '\r' :: '\n' :: _ => 2
  | c :: rest => if isBreak c then 1 else 1 + lineReach rest

/-- The length of a numbered reference after its number sign: up to the next number sign or equals
sign. -/
def sharpReach : List Char → Nat
  | [] => 0
  | c :: rest => if c == '#' || c == '=' then 1 else 1 + sharpReach rest

/-- What is no part of the language but may stand in a script: the first line of a program file,
inclusions, numbered references, and the marks of a comment of the page. -/
def Reader.foreign? (r : Reader) : Option (Item × Reader) :=
  let text := r.rest
  let first := r.tokens.isEmpty
  match text with
  | '#' :: rest =>
    if first && rest.head? == some '!' then
      let n := 2 + lineReach (text.drop 2)
      some (strayLine (text.take n), { r with rest := text.drop n })
    else if "#include".toList.isPrefixOf text then
      let n := 8 + lineReach (text.drop 8)
      some (strayLine (text.take n), { r with rest := text.drop n })
    else if (rest.head?.any Char.isDigit) then
      let n := sharpReach rest
      let tail := rest.drop n
      let ended := (rest.take n).getLast? == some '#'
      let more := if !ended && (['[', ']'].isPrefixOf tail || ['\x7b', '\x7d'].isPrefixOf tail) then 2 else 0
      some (.token .word (text.take (1 + n + more)), { r with rest := tail.drop more })
    else none
  | '<' :: _ =>
    if first && "<!--".toList.isPrefixOf text then
      let line := text.takeWhile fun c => !isBreak c
      some (.comment .line line [], { r with rest := text.drop line.length, inPageComment := true })
    else none
  | '-' :: _ =>
    if r.inPageComment && "-->".toList.isPrefixOf text then
      some (.comment .line "-->".toList [], { r with rest := text.drop 3, inPageComment := false })
    else none
  | _ => none

/-- The item of one character. -/
def single? (text : List Char) : Option (Kind × Char) :=
  match text with
  | c :: rest =>
    match c with
    | '(' | '[' => some (.openExpr, c)
    | ')' | ']' => some (.closeExpr, c)
    | '\x7b' => some (.openBlock, c)
    | '\x7d' => some (.closeBlock, c)
    | ';' => some (.semicolon, c)
    | ',' => some (.comma, c)
    | '.' => if rest.head?.any (fun d => !isDigit d && d != '.') then some (.dot, c) else none
    | _ => none
  | [] => none

/-- The operator at the beginning of a text. -/
def operator? (text : List Char) : Option String :=
  match text with
  | '?' :: '.' :: rest =>
    if rest.head?.any isDigit then operators.find? fun o => o.toList.isPrefixOf text else some "?."
  | _ => operators.find? fun o => o.toList.isPrefixOf text

/-- Takes the first `n` characters as a token. -/
def Reader.take (r : Reader) (kind : Kind) (n : Nat) : Item × Reader :=
  (.token kind (unifyBreaks (r.rest.take n)), { r with rest := r.rest.drop n })

def Reader.kindOf (r : Reader) (word : String) : Kind :=
  let afterDot := r.previous.kind = .dot || r.previous.isReserved ["set", "get"]
  if afterDot || !reservedWords.contains word then .word
  else if word == "in" || word == "of" then .operator
  else .reserved

/-- A block comment, with what a directive in it makes one comment. -/
def Reader.blockComment (r : Reader) : Item × Reader :=
  let n := 2 + reach ['*', '/'] (r.rest.drop 2)
  let comment := r.rest.take n
  let directives := directivesOf comment
  let (ignored, c) :=
    if directs directives "ignore" "start" then (Cursor.ofText (r.rest.drop n)).takeIgnored
    else ([], Cursor.ofText (r.rest.drop n))
  (.comment .block (unifyBreaks (comment ++ ignored)) directives, { r with rest := c.future })

/-- Reads the item at the beginning of the rest, which has no blanks there. -/
def Reader.item (r : Reader) (o : Options) : Outcome (Item × Reader) := do
  match r.rest with
  | [] => return (.token .stop [], r)
  | c :: rest =>
    if let some found := r.foreign? then return found
    if c == '\x60' || c == '\'' || c == '"' then
      let q := stringBody o.templating c rest
      let text := c :: q.text
      let text := if q.escapes && o.unescapeStrings then (unescape text).getD text else text
      let closed := q.rest.head? == some c
      let text := if closed then text ++ [c] else text
      return (.token .string (unifyBreaks text), { r with rest := if closed then q.rest.drop 1 else q.rest })
    let n := wordLength o.templating r.rest
    if 0 < n then
      let word := unifyBreaks (r.rest.take n)
      return (.token (r.kindOf (String.ofList word)) word, { r with rest := r.rest.drop n })
    let n := numberLength r.rest
    if 0 < n then return (.token .word (r.rest.take n), { r with rest := r.rest.drop n })
    if let some (kind, _) := single? r.rest then return r.take kind 1
    if c == '/' && rest.head? == some '*' then return r.blockComment
    if c == '/' && rest.head? == some '/' then
      let line := r.rest.takeWhile fun c => !isBreak c
      return (.comment .line line [], { r with rest := r.rest.drop line.length })
    if c == '/' && (← r.mayBeginExpr) then
      let n := patternLength r.rest
      return (.token .string (r.rest.take n), { r with rest := r.rest.drop n })
    let mut r := r
    if o.inlineMarkup && c == '<' && (← r.mayBeginExpr) then
      let text := r.rest.toArray
      match markupStart? text with
      | some (_, some root) =>
        match markupReach text root (text.size + 1) 0 0 with
        | some n => return r.take .string n
        | none => throw .missingOperation
      | some (n, none) => r := { r with rest := r.rest.drop n }
      | none => pure ()
    if let some o := operator? r.rest then
      let kind := if o == "=" then .equals else if o == "?." then .dot else .operator
      return r.take kind o.length
    match r.rest with
    | [] => throw .missingOperation
    | d :: rest => return (.comment .stray [d] [], { r with rest })

/-- Adds a token and minds the brackets. -/
def Reader.push (r : Reader) (t : Token) : Reader :=
  let opens := t.kind = .openBlock || t.kind = .openExpr
  let closes := t.kind = .closeBlock || t.kind = .closeExpr
  let matching := match r.openers with
    | (opener, before) :: _ =>
      if closes && [("[", "]"), ("(", ")"), ("\x7b", "\x7d")].contains (opener, t.text) then some before
      else none
    | [] => none
  { r with
    tokens := t :: r.tokens
    previous := t
    beforeOpener := matching
    openers := if opens then (t.text, r.previous) :: r.openers
      else if matching.isSome then r.openers.drop 1 else r.openers }

/-- Reads at most `fuel` items up to the end; `comments` wait for their token, last first. -/
def Reader.run (o : Options) : (fuel : Nat) → List Comment → Reader → Outcome Reader
  | 0, _, r => .ok r
  | fuel + 1, comments, r => do
    let space := r.rest.takeWhile fun c => isGapBlank c || isBreak c
    let gap := Gap.ofText space
    let (item, r) ← { r with rest := r.rest.drop space.length }.item o
    match item with
    | .comment kind text directives =>
      Reader.run o fuel ({ kind, text, gap, directives } :: comments) r
    | .token kind text =>
      let r := r.push { kind, text := String.ofList text, gap, comments := comments.reverse }
      if kind = .stop then return r else Reader.run o fuel [] r

/-- The tokens of a script; the last one is its end. -/
def tokens (o : Options) (text : List Char) : Outcome (List Token) := do
  if o.templating.contains "smarty" then throw .missingOperation
  let r ← Reader.run o (text.length + 1) [] { rest := text }
  return r.tokens.reverse

end TemplateTidy.Code.Script
