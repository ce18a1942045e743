import TemplateTidy.Failure
import TemplateTidy.Files.Path

/-! # Counts and names in reports -/

namespace TemplateTidy.Report

/-- Whether a count takes the plural. -/
def isPlural (n : Int) : Bool :=
  1 < n || n == 0

/-- A number of files. -/
def quantity (n : Int) : String :=
  toString n ++ " file" ++ (if isPlural n then "s" else "")

/-- A number of files with its verb. -/
def quantityTense (n : Int) : String :=
  quantity n ++ " " ++ (if isPlural n then "were" else "was")

/-- The rest of a path below a root. -/
def below? (root path : Files.Path) : Option Files.Path :=
  if root.absolute == path.absolute && root.parts.isPrefixOf path.parts then
    some { absolute := false, parts := path.parts.drop root.parts.length }
  else none

/-- The name of a file as seen from a root: relative if it lies below the root, else as it is.  A file
that lies below the root as it is written must also lie below the directory that this leads to from
`current`. -/
def nameFrom (current root : Files.Path) (name : String) : Outcome String :=
  let path := Files.Path.ofString name
  let full := current.resolve root
  if root = path || (below? root path).isNone then .ok name
  else
    match below? full path with
    | some rest => .ok rest.render
    | none => .error (.notBelow path.render full.render)

/-- The name of a file as seen from a root without double dots. -/
def relativeName (root : Files.Path) (name : String) : String :=
  (nameFrom root root name).toOption.getD name

end TemplateTidy.Report
