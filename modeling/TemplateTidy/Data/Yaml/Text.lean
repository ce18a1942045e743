import TemplateTidy.Data.Yaml.Cursor
import TemplateTidy.Text.Word

/-! # Written scalars

The text of a scalar in quotes, of a plain one, and of one that is an indented block.  Line ends
inside a scalar are folded: a single one becomes a space, and of several the first is dropped. -/

namespace TemplateTidy.Data.Yaml

/-! ### Quoted scalars -/

/-- The character that an escape stands for. -/
def escaped? : Char → Option Char
  | '0' => some '\x00'
  | 'a' => some '\x07'
  | 'b' => some '\x08'
  | 't' | '\t' => some '\t'
  | 'n' => some '\n'
  | 'v' => some '\x0b'
  | 'f' => some '\x0c'
  | 'r' => some '\r'
  | 'e' => some '\x1b'
  | ' ' => some ' '
  | '"' => some '"'
  | '\\' => some '\\'
  | '/' => some '/'
  | 'N' => some '\u0085'
  | '_' => some '\u00a0'
  | 'L' => some '\u2028'
  | 'P' => some '\u2029'
  | _ => none

/-- The number of digits of an escape by number. -/
def escapeWidth? : Char → Option Nat
  | 'x' => some 2
  | 'u' => some 4
  | 'U' => some 8
  | _ => none

/-- Passes empty lines inside quotes; a mark between documents may not stand there. -/
def quotedBreaks? : (fuel : Nat) → Cursor → Option (List Char × Cursor)
  | 0, _ => none
  | fuel + 1, c =>
    if c.atSeparator then none
    else
      let c := c.skipWhile fun ch => ch == ' ' || ch == '\t'
      match c.lineBreak with
      | ([], _) => some ([], c)
      | (br, c) => do
        let (more, c) ← quotedBreaks? fuel c
        return (br ++ more, c)

/-- Reads a quoted scalar up to its closing quote. -/
def quoted? (double : Bool) : (fuel : Nat) → Cursor → List Char → Option (List Char × Cursor)
  | 0, _, _ => none
  | fuel + 1, c, done =>
    match c.rest with
    | [] => none
    | ch :: rest =>
      if ch == '\'' && !double then
        if rest.head? == some '\'' then quoted? double fuel (c.forward 2) (done ++ ['\''])
        else some (done, c.next)
      else if ch == '"' && double then some (done, c.next)
      else if ch == '\\' && double then
        match rest with
        | [] => none
        | e :: rest =>
          match escaped? e with
          | some r => quoted? double fuel (c.forward 2) (done ++ [r])
          | none =>
            match escapeWidth? e with
            | some width => do
              let digits := rest.take width
              if digits.length < width then none
              let code ← digits.foldlM (fun n d => do return n * 16 + (← Text.hexDigit? d)) 0
              quoted? double fuel (c.forward (2 + width)) (done ++ [Char.ofNat code])
            | none =>
              if isBreak e then do
                let (breaks, c) ← quotedBreaks? fuel c.next.lineBreak.2
                quoted? double fuel c (done ++ breaks)
              else none
      else if ch == ' ' || ch == '\t' || isBreak ch then
        let blanks := c.rest.takeWhile fun ch => ch == ' ' || ch == '\t'
        let c := c.forward blanks.length
        match c.rest with
        | [] => none
        | _ :: _ =>
          match c.lineBreak with
          | ([], _) => quoted? double fuel c (done ++ blanks)
          | (br, c) => do
            let (breaks, c) ← quotedBreaks? fuel c
            let joint := if br != ['\n'] then br else if breaks.isEmpty then [' '] else []
            quoted? double fuel c (done ++ joint ++ breaks)
      else quoted? double fuel c.next (done ++ [ch])

/-! ### Plain scalars -/

/-- The part of a plain scalar up to the next blank. -/
def plainRun (flow : Bool) : List Char → List Char
  | [] => []
  | c :: rest =>
    if c == ' ' || c == '\t' || isBreak c then []
    else if c == ':' && (isGapAt rest || (flow && rest.head?.any (",[]\x7b\x7d".toList.contains ·))) then []
    else if flow && ",?[]\x7b\x7d".toList.contains c then []
    else c :: plainRun flow rest

/-- Passes the empty lines inside a plain scalar; nothing is given if a new document begins. -/
def plainBreaks : (fuel : Nat) → Cursor → Option (List Char) × Cursor
  | 0, c => (none, c)
  | fuel + 1, c =>
    if c.atSeparator then (none, c)
    else
      let c := c.skipWhile (· == ' ')
      match c.lineBreak with
      | ([], _) => (some [], c)
      | (br, c) =>
        let (more, c) := plainBreaks fuel c
        (more.map (br ++ ·), c)

/-- What joins two parts of a plain scalar, and whether a line ended between them. -/
def plainJoint (fuel : Nat) (c : Cursor) : List Char × Bool × Cursor :=
  let blanks := c.rest.takeWhile (· == ' ')
  let c := c.forward blanks.length
  match c.lineBreak with
  | ([], _) => (blanks, false, c)
  | (br, c) =>
    match plainBreaks fuel c with
    | (none, c) => ([], true, c)
    | (some breaks, c) =>
      ((if br != ['\n'] then br else if breaks.isEmpty then [' '] else []) ++ breaks, true, c)

/-- Reads a plain scalar whose further lines are indented by `indent` at least; also tells whether a
line ended after its last part. -/
def plain (flow : Bool) (indent : Int) : (fuel : Nat) → Cursor → List Char → List Char →
    Bool → List Char × Bool × Cursor
  | 0, c, _, done, ended => (done, ended, c)
  | fuel + 1, c, joint, done, ended =>
    if c.rest.head? == some '#' then (done, ended, c)
    else
      let run := plainRun flow c.rest
      if run.isEmpty then (done, ended, c)
      else
        let done := done ++ joint ++ run
        let (joint, ended, c) := plainJoint fuel (c.forward run.length)
        if joint.isEmpty || c.rest.head? == some '#' || (!flow && (c.column : Int) < indent) then
          (done, ended, c)
        else plain flow indent fuel c joint done ended

/-! ### Block scalars -/

/-- What happens to the line ends after the last line of a block scalar. -/
inductive Chomp where
  | strip
  | clip
  | keep
deriving DecidableEq, Repr

/-- Reads the marks after the sign of a block scalar. -/
def blockMarks? (c : Cursor) : Option (Chomp × Option Nat × Cursor) :=
  let chomp (c : Cursor) : Chomp × Cursor :=
    match c.rest.head? with
    | some '+' => (.keep, c.next)
    | some '-' => (.strip, c.next)
    | _ => (.clip, c)
  let number (c : Cursor) : Option Nat × Cursor :=
    match c.rest.head? with
    | some d => if d.isDigit then (some (d.toNat - '0'.toNat), c.next) else (none, c)
    | none => (none, c)
  let (first, afterChomp) := chomp c
  let (chomping, increment, c) :=
    if first = .clip then
      let (increment, c) := number c
      if increment.isSome then
        let (chomping, c) := chomp c
        (chomping, increment, c)
      else (.clip, none, c)
    else
      let (increment, c) := number afterChomp
      (first, increment, c)
  if increment == some 0 || !isSpaceOrEndAt c.rest then none else some (chomping, increment, c)

/-- Passes empty lines before the first line of a block scalar, and finds its deepest indentation. -/
def blockIndentation : (fuel deepest : Nat) → Cursor → List Char → List Char × Nat × Cursor
  | 0, deepest, c, breaks => (breaks, deepest, c)
  | fuel + 1, deepest, c, breaks =>
    match c.rest.head? with
    | some ' ' => blockIndentation fuel (max deepest c.next.column) c.next breaks
    | _ =>
      match c.lineBreak with
      | ([], _) => (breaks, deepest, c)
      | (br, c) => blockIndentation fuel deepest c (breaks ++ br)

def skipIndent (indent : Nat) (c : Cursor) : Cursor :=
  c.forward (min (indent - c.column) (c.rest.takeWhile (· == ' ')).length)

/-- Passes empty lines inside a block scalar. -/
def blockBreaks (indent : Nat) : (fuel : Nat) → Cursor → List Char × Cursor
  | 0, c => ([], c)
  | fuel + 1, c =>
    let c := skipIndent indent c
    match c.lineBreak with
    | ([], _) => ([], c)
    | (br, c) =>
      let (more, c) := blockBreaks indent fuel c
      (br ++ more, c)

/-- Reads the lines of a block scalar; `breaks` are the empty lines before the next one. -/
def blockLines (folded : Bool) (indent : Nat) (chomping : Chomp) :
    (fuel : Nat) → Cursor → (breaks lineBreak done : List Char) → List Char × Cursor
  | 0, c, _, _, done => (done, c)
  | fuel + 1, c, breaks, lineBreak, done =>
    if c.column == indent && !c.rest.isEmpty then
      let done := done ++ breaks
      let flush := !(c.rest.head?.any fun ch => ch == ' ' || ch == '\t')
      let text := c.rest.takeWhile (!isBreak ·)
      let done := done ++ text
      let (lineBreak, c) := (c.forward text.length).lineBreak
      let (breaks, c) := blockBreaks indent fuel c
      if c.column == indent && !c.rest.isEmpty then
        let nextFlush := !(c.rest.head?.any fun ch => ch == ' ' || ch == '\t')
        let joint :=
          if folded && lineBreak == ['\n'] && flush && nextFlush then
            if breaks.isEmpty then [' '] else []
          else lineBreak
        blockLines folded indent chomping fuel c breaks [] (done ++ joint)
      else (finish breaks lineBreak done, c)
    else (finish breaks lineBreak done, c)
where
  /-- Treats the line ends after the last line. -/
  finish (breaks lineBreak done : List Char) : List Char :=
    match chomping with
    | .strip => done
    | .clip => done ++ lineBreak
    | .keep => done ++ lineBreak ++ breaks

/-- Reads a block scalar inside a block that is indented by `outer`. -/
def block? (folded : Bool) (outer : Int) (fuel : Nat) (c : Cursor) : Option (List Char × Cursor) := do
  let (chomping, increment, c) ← blockMarks? c.next
  let c ← c.restOfLine?
  let least := (max (outer + 1) 1).toNat
  let (indent, breaks, c) :=
    match increment with
    | none =>
      let (breaks, deepest, c) := blockIndentation fuel 0 c []
      (max least deepest, breaks, c)
    | some n =>
      let indent := least + n - 1
      let (breaks, c) := blockBreaks indent fuel c
      (indent, breaks, c)
  return blockLines folded indent chomping fuel c breaks [] []

end TemplateTidy.Data.Yaml
