import TemplateTidy.Failure
import TemplateTidy.Pattern.Search

/-! # Ignore files

A line of an ignore file is a path with wildcards.  A star stands for any text within a name, a double
star for any number of names; a leading exclamation mark takes a path back.  The last line that
matches a path decides. -/

namespace TemplateTidy.Files

open Text

structure IgnoreRule where
  pattern : Pattern
  /-- Whether a path that matches is ignored, or taken back. -/
  ignores : Bool
deriving Repr

namespace IgnoreRule

/-- What stands between brackets: everything up to the closing one, which counts only after the first
character, and the rest. -/
def bracket? (s : List Char) : Option (List Char × List Char) :=
  let (mark, t) := match s with
    | c :: rest => if c == '!' || c == '^' then ([c], rest) else ([], s)
    | [] => ([], s)
  let (first, t) := match t with
    | ']' :: rest => ([']'], rest)
    | _ => ([], t)
  let body := t.takeWhile (· != ']')
  match t.drop body.length with
  | _ :: rest => some (mark ++ first ++ body, rest)
  | [] => none

/-- The pattern of one name with wildcards; nothing if it ends in a lone backslash. -/
def segment? : (fuel : Nat) → List Char → Option (List Char)
  | 0, _ => none
  | _ + 1, [] => some []
  | fuel + 1, c :: rest =>
    match c with
    | '\\' =>
      match rest with
      | d :: rest => (segment? fuel rest).map (Pattern.quote [d] ++ ·)
      | [] => none
    | '*' => (segment? fuel rest).map ("[^/]*".toList ++ ·)
    | '?' => (segment? fuel rest).map ("[^/]".toList ++ ·)
    | '[' =>
      match bracket? rest with
      | some (body, rest') =>
        let (mark, body) := match body with
          | d :: tail => if d == '!' || d == '^' then (['^'], tail) else ([], body)
          | [] => ([], body)
        let doubled := body.flatMap fun c => if c == '\\' then ['\\', '\\'] else [c]
        (segment? fuel rest').map (['['] ++ mark ++ doubled ++ [']'] ++ ·)
      | none => (segment? fuel rest).map ("\\[".toList ++ ·)
    | _ => (segment? fuel rest).map (Pattern.quote [c] ++ ·)

/-- Drops each double star that follows one. -/
def dropDoubled : List (List Char) → List (List Char)
  | a :: b :: rest =>
    if a == ['*', '*'] && b == ['*', '*'] then dropDoubled (b :: rest) else a :: dropDoubled (b :: rest)
  | s => s

/-- Below a directory, or the path itself. -/
def withContents : List Char :=
  "(?:/.*)?".toList

/-- The patterns of the names of a path; `slash` says that one is due before the next name, and
`first` that none came before. -/
def segments? (slash first : Bool) : List (List Char) → Option (List Char)
  | [] => some []
  | seg :: rest =>
    let due := if slash then ['/'] else []
    if seg == ['*', '*'] then
      if first && rest.isEmpty then some ("[^/]+".toList ++ withContents)
      else if first then (segments? false false rest).map ("(?:.+/)?".toList ++ ·)
      else if rest.isEmpty then some "/.*".toList
      else (segments? true false rest).map ("(?:/.+)?".toList ++ ·)
    else
      let body := if seg == ['*'] then some "[^/]+".toList else segment? (seg.length + 1) seg
      match body with
      | none => none
      | some body =>
        let tail := if rest.isEmpty then withContents else []
        (segments? true false rest).map (due ++ body ++ tail ++ ·)

/-- The names of a path as they are matched: relative to the root, with a double star for what may
stand before and for what stands below a directory. -/
def normalize (segs : List (List Char)) : List (List Char) :=
  let segs := dropDoubled segs
  let segs := match segs with
    | [] :: rest => rest
    | [a] => if a == ['*', '*'] then [a] else [['*', '*'], a]
    | [a, []] => if a == ['*', '*'] then [a, []] else [['*', '*'], a, []]
    | _ => segs
  if 1 < segs.length && segs.getLast? == some [] then segs.dropLast ++ [['*', '*']] else segs

/-- Reads a line; blank lines and comments give nothing. -/
def ofLine (line : List Char) : Outcome (Option IgnoreRule) := do
  let text :=
    if "\\ ".toList.isSuffixOf line then stripLeft line else strip line
  if text.isEmpty || text.head? == some '#' || text == ['/'] then return none
  let (ignores, text) := match text with
    | '!' :: rest => (false, rest)
    | _ => (true, text)
  let segs := text.splitOn '/'
  let source ←
    if dropDoubled segs == [['*', '*'], []] then pure ".+/.*".toList
    else
      let segs := normalize segs
      if segs.isEmpty then throw .badIgnorePattern
      match segments? false true segs with
      | some s => pure s
      | none => throw .badIgnorePattern
  let pattern ← compile { strict := true } (['^'] ++ source ++ ['$'])
  return some { pattern, ignores }

end IgnoreRule

abbrev IgnoreFile := List IgnoreRule

namespace IgnoreFile

/-- Reads an ignore file. -/
def ofLines (lines : List (List Char)) : Outcome IgnoreFile := do
  return (← lines.mapM IgnoreRule.ofLine).filterMap id

/-- Whether an absolute path is ignored. -/
def ignores (rules : IgnoreFile) (path : String) : Bool :=
  let relative := match path.toList with
    | '/' :: rest => rest
    | '.' :: '/' :: rest => rest
    | s => s
  rules.foldl (fun ignored rule =>
    if (rule.pattern.matchStart? relative.toArray).isSome then rule.ignores else ignored) false

end IgnoreFile

end TemplateTidy.Files
