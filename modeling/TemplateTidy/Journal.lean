import TemplateTidy.Failure
import TemplateTidy.Text.Paint

/-! # Journals

What a run says on the way: lines for the reader and records for the log.  Both survive a failure.
Lines are kept without their colours. -/

namespace TemplateTidy

/-- The weight of a log record. -/
inductive Level where
  | info
  | error
deriving DecidableEq, Repr

/-- What a run has said so far, the latest first. -/
structure Journal where
  lines : List String := []
  records : List (Level × String) := []

/-- A computation that keeps a journal and may fail. -/
abbrev Run := Stateful Journal

namespace Run

/-- Says a line as it is. -/
def hand (line : String) : Run Unit :=
  modify fun j => { j with lines := line :: j.lines }

/-- Says a line without its colours. -/
def say (line : String) : Run Unit :=
  hand (Text.plain line)

def record (level : Level) (text : String) : Run Unit :=
  modify fun j => { j with records := (level, text) :: j.records }

end Run

/-- The lines of a journal in order, each with its line end. -/
def Journal.text (j : Journal) : String :=
  String.join (j.lines.reverse.map (· ++ "\n"))

end TemplateTidy
