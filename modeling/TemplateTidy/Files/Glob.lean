import TemplateTidy.Files.Tree

/-! # Searching for files

A search names path components with wildcards: a star for any text, a question mark for one
character, brackets for one of several characters; two stars for any number of directories. -/

namespace TemplateTidy.Files.Glob

/-- One piece of a name with wildcards. -/
inductive Piece where
  | any
  | one
  | literal (c : Char)
  /-- One character of the ranges, or one of none of them. -/
  | oneOf (ranges : List (Char × Char)) (negated : Bool)
deriving DecidableEq, Repr

/-- The ranges between brackets; a hyphen between two characters makes one. -/
def rangesOf : List Char → List (Char × Char)
  | a :: '-' :: b :: rest => (a, b) :: rangesOf rest
  | a :: rest => (a, a) :: rangesOf rest
  | [] => []

/-- What stands between brackets, and what follows; the first character never closes them. -/
def bracket? (s : List Char) : Option (Piece × List Char) :=
  let (negated, t) := match s with
    | '!' :: rest => (true, rest)
    | _ => (false, s)
  let (first, t) := match t with
    | ']' :: rest => ([']'], rest)
    | _ => ([], t)
  let body := t.takeWhile (· != ']')
  match t.drop body.length with
  | _ :: rest => some (.oneOf (rangesOf (first ++ body)) negated, rest)
  | [] => none

/-- The pieces of a name with wildcards. -/
def piecesFrom : (fuel : Nat) → List Char → List Piece
  | 0, _ | _ + 1, [] => []
  | fuel + 1, c :: rest =>
    match c with
    | '*' => .any :: piecesFrom fuel rest
    | '?' => .one :: piecesFrom fuel rest
    | '[' =>
      match bracket? rest with
      | some (p, rest) => p :: piecesFrom fuel rest
      | none => .literal '[' :: piecesFrom fuel rest
    | _ => .literal c :: piecesFrom fuel rest

/-- The pieces of a name with wildcards. -/
def pieces (s : List Char) : List Piece :=
  piecesFrom s.length s

def Piece.takes (p : Piece) (c : Char) : Bool :=
  match p with
  | .any | .one => true
  | .literal d => c == d
  | .oneOf ranges negated => (ranges.any fun r => r.1 ≤ c && c ≤ r.2) != negated

/-- Whether the pieces fit the whole name. -/
def fits : List Piece → List Char → Bool
  | [], s => s.isEmpty
  | .any :: ps, s => fitsAfter ps s
  | p :: ps, c :: rest => p.takes c && fits ps rest
  | _ :: _, [] => false
where
  /-- Whether the pieces fit some end of the name. -/
  fitsAfter (ps : List Piece) : List Char → Bool
    | [] => fits ps []
    | c :: rest => fits ps (c :: rest) || fitsAfter ps rest

inductive Component where
  /-- The directory itself and all directories below it. -/
  | anyDepth
  /-- The directory above. -/
  | up
  /-- The path itself, if it is a directory. -/
  | here
  | name (pieces : List Piece)

def Component.ofString (s : String) : Outcome Component :=
  if s = "**" then .ok .anyDepth
  else if s = ".." then .ok .up
  else if Text.contains ['*', '*'] s.toList then .error .badSearch
  else .ok (.name (pieces s.toList))

/-- The paths below a directory, written as going on from it. -/
def pathsBelow (t : Tree) (d : Path) : List Path :=
  let depth := (t.resolve d).parts.length
  (t.filesBelow d).map fun p => { d with parts := d.parts ++ p.parts.drop depth }

/-- What stands directly in a directory. -/
def entriesOf (t : Tree) (d : Path) : List Path :=
  (pathsBelow t d).filter fun p => p.parts.length = d.parts.length + 1

def directoriesFrom (t : Tree) (d : Path) : List Path :=
  d :: (pathsBelow t d).filter t.isDirectory

/-- All paths that the components lead to from a directory. -/
def select (t : Tree) : List Component → Path → List Path
  | [], p => [p]
  | .anyDepth :: rest, d => ((directoriesFrom t d).flatMap (select t rest)).eraseDups
  | .up :: rest, d => select t rest (d.child "..")
  | .here :: rest, d => if t.isDirectory d then select t rest d else []
  | .name ps :: rest, d =>
    ((entriesOf t d).filter fun p =>
      fits ps p.name.toList && (rest.isEmpty || t.isDirectory p)).flatMap (select t rest)

/-- All paths below a directory that a search leads to.  A slash at the end asks for directories. -/
def search (t : Tree) (d : Path) (pattern : String) : Outcome (List Path) := do
  let components ← (Path.ofString pattern).parts.mapM Component.ofString
  let components := if pattern.endsWith "/" then components ++ [.here] else components
  return if t.isDirectory d then select t components d else []

end TemplateTidy.Files.Glob
