/-! # Paths

A path is a list of names, from the root or from the current directory.  Empty names and single dots
are dropped when a path is read; double dots stay until the path is resolved. -/

namespace TemplateTidy.Files

structure Path where
  absolute : Bool
  parts : List String
deriving DecidableEq, Repr, Inhabited

namespace Path

def root : Path :=
  { absolute := true, parts := [] }

/-- Reads a path. -/
def ofString (s : String) : Path :=
  { absolute := s.startsWith "/",
    parts := ((s.toList.splitOn '/').map String.ofList).filter fun p => p != "" && p != "." }

/-- Writes a path. -/
def render (p : Path) : String :=
  if p.absolute then "/" ++ String.intercalate "/" p.parts
  else if p.parts.isEmpty then "."
  else String.intercalate "/" p.parts

/-- The entry of a directory. -/
def child (p : Path) (name : String) : Path :=
  { p with parts := p.parts ++ [name] }

/-- Drops double dots with the names before them. -/
def collapse (parts : List String) : List String :=
  (parts.foldl (fun done name => if name = ".." then done.drop 1 else name :: done) []).reverse

/-- The absolute path of `p`, seen from the directory `base`, without double dots. -/
def resolve (base p : Path) : Path :=
  { absolute := true, parts := collapse (if p.absolute then p.parts else base.parts ++ p.parts) }

/-- All proper beginnings of a list of names, the longest first. -/
def properInits : List String → List (List String)
  | [] => []
  | name :: rest => (properInits rest).map (name :: ·) ++ [[]]

/-- The directories above a path, the nearest first. -/
def parents (p : Path) : List Path :=
  (properInits p.parts).map fun parts => { p with parts }

def name (p : Path) : String :=
  p.parts.getLast?.getD ""

end Path

end TemplateTidy.Files
