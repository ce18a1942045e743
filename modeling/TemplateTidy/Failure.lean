import TemplateTidy.Pattern.Reader
import TemplateTidy.Value

/-! # Failures

What can go wrong in a run, by cause, and the wording that goes with a cause. -/

namespace TemplateTidy

inductive Failure where
  /-- A text that should be a pattern is none. -/
  | badPattern (fault : PatternFault)
  /-- A value has a type that the operation does not take. -/
  | wrongType
  /-- A value lacks the operation that is asked of it. -/
  | missingOperation
  /-- A table has no entry of this key. -/
  | missingKey (key : Value)
  /-- A list has no element at the place that is asked for. -/
  | outOfRange
  /-- A sequence ends before the element that is asked for. -/
  | exhausted
  /-- A text is no number. -/
  | notANumber (s : String)
  /-- A number is too large for every whole number. -/
  | infinite
  /-- A text ends before the character that is asked for. -/
  | noCharacter
  /-- An option has a name or a value that does not exist. -/
  | badOption (message : String)
  /-- A line form is badly written. -/
  | badForm (message : String)
  /-- A line form asks for a value by a place that does not exist. -/
  | noPlace (message : String)
  /-- A search for files names more than a path component by two stars. -/
  | badSearch
  /-- A rule names a check that does not exist. -/
  | unknownCheck (name : String)
  /-- A check answers with something that is no list of findings. -/
  | badCheck (rule : String)
  | badYaml
  | badToml
  /-- A line of an ignore file is no pattern. -/
  | badIgnorePattern
  /-- A file is not UTF-8. -/
  | badEncoding
  | missingFile (path : String)
  /-- A path does not lie below a directory. -/
  | notBelow (path directory : String)
  | isDirectory (path : String)
  | notADirectory (path : String)
deriving Inhabited

/-- The message of a failure; empty where none is shown. -/
def Failure.message : Failure → String
  | .missingKey key => key.inner
  | .outOfRange => "list index out of range"
  | .notANumber s => "invalid literal for int() with base 10: " ++ Value.quote s
  | .infinite => "cannot convert float infinity to integer"
  | .noCharacter => "string index out of range"
  | .badOption message => message
  | .badForm message => message
  | .noPlace message => message
  | .badSearch => "Invalid pattern: '**' can only be an entire path component"
  | .unknownCheck name => "No module named " ++ Value.quote name
  | .badCheck rule =>
    "Error: " ++ rule ++ " python_module run() should return a list of " ++
      "dict with keys: code, line, match, message."
  | .notBelow path directory =>
    Value.quote path ++ " is not in the subpath of " ++ Value.quote directory ++
      " OR one path is relative and the other is absolute."
  | .missingFile path => "[Errno 2] No such file or directory: " ++ Value.quote path
  | .isDirectory path => "[Errno 21] Is a directory: " ++ Value.quote path
  | .notADirectory path => "[Errno 20] Not a directory: " ++ Value.quote path
  | _ => ""

/-- A computation that may fail. -/
abbrev Outcome := Except Failure

/-- A computation over a state that may fail.  What it has done to the state stays if it fails. -/
abbrev Stateful (σ : Type) := ExceptT Failure (StateM σ)

/-- Takes over an outcome, and leaves the state alone. -/
def Stateful.lift {σ α : Type} (o : Outcome α) : Stateful σ α :=
  match o with
  | .ok a => pure a
  | .error e => throw e

/-- Reads a pattern. -/
def compile (flags : Flags) (source : List Char) : Outcome Pattern :=
  match Pattern.read flags source with
  | .ok p => .ok p
  | .error f => .error (.badPattern f)

/-- The elements of a value, as a walk through it sees them. -/
def Value.elements : Value → Outcome (List Value)
  | .list xs | .tuple xs | .set xs => .ok xs
  | .text s => .ok (s.toList.map fun c => .text (String.singleton c))
  | .dict entries => .ok (entries.map (·.1))
  | _ => .error .wrongType

end TemplateTidy
