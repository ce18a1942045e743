import Std.Data.HashSet
import TemplateTidy.Pattern.Search

/-! # Repeated attributes

An attribute counts as repeated if its name stands before an equals sign again, later in the tag.  The
way there leads over quoted values and template tags as a whole and over other characters one by one.
Within a tag no way is taken twice: where the search for an earlier attribute has passed, the search
for a later one only looks at the place itself. -/

namespace TemplateTidy.Lint

def tagStart : Pattern :=
  .ofSource {} r"<\w"

/-- The name of an attribute before its equals sign. -/
def attributeName : Pattern :=
  .ofSource { ignoreCase := true } "[a-z-:][a-z-]*?(?==)"

def tagStep : Pattern :=
  .ofSource { ignoreCase := true } (r#"\"[^\"]*\"|'[^']*'|\x7b\x7b(?:(?!\x7d\x7d).)*\x7d\x7d"# ++
    r#"|\x7b%(?:(?!%\x7d).)*%\x7d|\x7b#(?:(?!#\x7d).)*#\x7d|[^'\">\x7b\x7d]"#)

/-- A second use of a name, after a character that does not continue another name. -/
def secondUse (name : List Char) : Pattern :=
  .ofSource { ignoreCase := true }
    ("[^-:]" ++ String.ofList (Pattern.quote name) ++ "=[^>]*?>")

/-- The places on the way from `pos`, the last one first.  The way ends at a place that has been
passed before. -/
def wayFrom (text : Array Char) (passed : Std.HashSet Nat) : (fuel pos : Nat) → List Nat → List Nat
  | 0, _, way => way
  | fuel + 1, pos, way =>
    if passed.contains pos then pos :: way
    else
      match tagStep.matchAt? text pos with
      | some m => wayFrom text passed fuel m.stop (pos :: way)
      | none => pos :: way

/-- The first repeated attribute among those that begin at the given places. -/
def firstRepeated (text : Array Char) (passed : Std.HashSet Nat) : List Nat → Option Span
  | [] => none
  | pos :: rest =>
    match attributeName.matchAt? text pos with
    | none => firstRepeated text passed rest
    | some m =>
      let way := wayFrom text passed (text.size + 1) (m.stop + 1) []
      let again := secondUse (m.text text)
      if way.any fun p => (again.matchAt? text p).isSome then some m.span
      else firstRepeated text (passed.insertMany way) rest

/-- The places after blanks in the tag that goes on at `pos`. -/
def attributePlaces (text : Array Char) (pos : Nat) : List Nat :=
  let stop := (text.toList.drop pos).findIdx (· == '>') + pos
  ((List.range' pos (stop - pos)).filter fun i => text[i]?.any Text.isSpace).map (· + 1)

/-- The repeated attributes that are found from `pos` on; each tag shows one at most. -/
def repeatedFrom (text : Array Char) : (fuel pos : Nat) → List Span
  | 0, _ => []
  | fuel + 1, pos =>
    match tagStart.findFrom? text pos false with
    | none => []
    | some m =>
      match firstRepeated text ∅ (attributePlaces text m.stop) with
      | some s => s :: repeatedFrom text fuel s.stop
      | none => repeatedFrom text fuel (m.start + 1)

def repeatedAttributes (text : Array Char) : List Span :=
  repeatedFrom text (text.size + 1) 0

end TemplateTidy.Lint
